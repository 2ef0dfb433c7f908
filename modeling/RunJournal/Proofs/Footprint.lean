import RunJournal.Proofs.Frame
import RunJournal.Proofs.StoreReads
/-!
# Footprints

`Footprint paths m` says that `m`, run in any world, leaves the working directory where it is and
changes no file but those at `paths`: every other file keeps its bytes and bits, and none appears
(`Disk.KeepsFilesOff`). It holds whatever `m` returns, failures and injected faults included, so
it is the frame of every call: a bind's footprint is its parts' together, a computation that only
reads has none, and a change of the disk has the places its function aims at.
-/

namespace RunJournal

/-- From `w` to `w'` the working directory stayed, and no file changed but those at `paths`. -/
def World.KeepsFilesOff (paths : List String) (w w' : World) : Prop :=
  w'.cwd = w.cwd ∧ Disk.KeepsFilesOff (paths.map (Disk.place w.cwd)) w.disk w'.disk

namespace World.KeepsFilesOff

variable {P Q : List String} {w w₁ w₂ w₃ : World}

theorem refl (P : List String) (w : World) : w.KeepsFilesOff P w :=
  ⟨rfl, Disk.KeepsFilesOff.refl _ _⟩

theorem of_disk (hdisk : w'.disk = w.disk) (hcwd : w'.cwd = w.cwd) (P : List String) :
    w.KeepsFilesOff P w' := by
  refine ⟨hcwd, ?_⟩
  rw [hdisk]
  exact Disk.KeepsFilesOff.refl _ _

theorem trans (h₁₂ : w₁.KeepsFilesOff P w₂) (h₂₃ : w₂.KeepsFilesOff Q w₃) :
    w₁.KeepsFilesOff (P ++ Q) w₃ := by
  refine ⟨h₂₃.1.trans h₁₂.1, ?_⟩
  have h := h₁₂.2.trans (h₁₂.1 ▸ h₂₃.2)
  rwa [← List.map_append] at h

theorem mono (h : w.KeepsFilesOff P w') (hPQ : ∀ p ∈ P, p ∈ Q) : w.KeepsFilesOff Q w' := by
  refine ⟨h.1, h.2.mono fun x hx => ?_⟩
  obtain ⟨p, hp, rfl⟩ := List.mem_map.mp hx
  exact List.mem_map_of_mem (hPQ p hp)

theorem read_eq {path : String} {b : List UInt8} (h : w.KeepsFilesOff P w')
    (hout : ∀ p ∈ P, Disk.place w.cwd p ≠ Disk.place w.cwd path)
    (hb : w.disk.read w.cwd path = .ok b) : w'.disk.read w'.cwd path = .ok b := by
  rw [h.1]
  refine h.2.read_eq (fun hmem => ?_) hb
  obtain ⟨p, hp, hpath⟩ := List.mem_map.mp hmem
  exact hout p hp hpath

end World.KeepsFilesOff

/-- Whatever it returns, `m` changes no file but those at `paths`, and leaves the working directory
where it is. -/
def Footprint {α : Type} (paths : List String) (m : WorldM α) : Prop :=
  ∀ w : World, w.KeepsFilesOff paths (m.run w).2

namespace Footprint

variable {α β γ ε ε' : Type} {P Q : List String}

theorem of_keeps {m : WorldM α} (h : ∀ w, (m.run w).2 = w) (P : List String) : Footprint P m :=
  fun w => by
    rw [h w]
    exact World.KeepsFilesOff.refl P w

theorem of_disk {m : WorldM α} (h : ∀ w, (m.run w).2.disk = w.disk ∧ (m.run w).2.cwd = w.cwd)
    (P : List String) : Footprint P m := fun w =>
  World.KeepsFilesOff.of_disk (h w).1 (h w).2 P

theorem pure (a : α) : Footprint [] (Pure.pure a : WorldM α) :=
  of_keeps (fun _ => rfl) []

theorem mono {m : WorldM α} (h : Footprint P m) (hPQ : ∀ p ∈ P, p ∈ Q) : Footprint Q m :=
  fun w => (h w).mono hPQ

theorem bind {x : WorldM α} {f : α → WorldM β} (hx : Footprint P x) (hf : ∀ a, Footprint Q (f a)) :
    Footprint (P ++ Q) (x >>= f) := by
  intro w
  rw [WorldM.bind_run]
  exact (hx w).trans (hf _ _)

theorem mapM {f : γ → WorldM α} {p : γ → String} (hf : ∀ c, Footprint [p c] (f c)) :
    ∀ cs : List γ, Footprint (cs.map p) (cs.mapM f)
  | [] => pure []
  | c :: cs => by
    rw [List.mapM_cons, List.map_cons]
    refine ((hf c).bind fun _ => ((mapM hf cs).bind fun _ => pure _)).mono fun q hq => ?_
    simpa using hq

theorem onDisk (f : Disk → List String → α) : Footprint [] (RunJournal.onDisk f) :=
  of_keeps (fun _ => rfl) []

theorem pathExists (path : String) : Footprint [] (RunJournal.pathExists path) :=
  onDisk _

theorem now : Footprint [] RunJournal.now :=
  of_disk (fun _ => ⟨rfl, rfl⟩) []

theorem ioCheck : Footprint [] RunJournal.ioCheck.run :=
  of_disk (fun w => by rw [ioCheck_effect]; exact ⟨rfl, rfl⟩) []

theorem reads {view : World → γ} {m : WorldE ε α} (h : Reads view m) : Footprint [] m.run :=
  of_keeps h.keeps []

theorem bindE {x : WorldE ε α} {f : α → WorldE ε β} (hx : Footprint P x.run)
    (hf : ∀ a, Footprint Q (f a).run) : Footprint (P ++ Q) (x >>= f).run := by
  rw [ExceptT.run_bind]
  refine hx.bind fun r => ?_
  cases r with
  | error e => exact (pure _).mono fun _ h => absurd h List.not_mem_nil
  | ok a => exact hf a

theorem bindE_nil {x : WorldE ε α} {f : α → WorldE ε β} (hx : Footprint [] x.run)
    (hf : ∀ a, Footprint [] (f a).run) : Footprint [] (x >>= f).run :=
  bindE hx hf

theorem throwE (e : ε) : Footprint [] (throw e : WorldE ε α).run :=
  of_keeps (fun _ => rfl) []

theorem pureE (a : α) : Footprint [] (Pure.pure a : WorldE ε α).run :=
  of_keeps (fun _ => rfl) []

theorem lift {m : WorldM α} (h : Footprint P m) : Footprint P (ExceptT.lift m : WorldE ε α).run := by
  intro w
  exact h w

theorem mapError {m : WorldE ε α} (g : ε → ε') (h : Footprint P m.run) :
    Footprint P (WorldE.mapError g m).run := by
  intro w
  rw [show ((WorldE.mapError g m).run.run w).2 = (m.run.run w).2 from
    congrArg Prod.snd (WorldE.mapError_run g m w)]
  exact h w

/-- A change of the disk whose function keeps every file off the places of `paths`. -/
theorem changeDisk {f : Disk → List String → Except IoError Disk}
    (hf : ∀ d cwd d', f d cwd = .ok d' → Disk.KeepsFilesOff (paths.map (Disk.place cwd)) d d') :
    Footprint paths (RunJournal.changeDisk f).run := by
  intro w
  obtain ⟨hcwd, -, hdisk⟩ := changeDisk_effect f w
  refine ⟨hcwd, ?_⟩
  rcases hdisk with hsame | hok
  · rw [hsame]
    exact Disk.KeepsFilesOff.refl _ _
  · exact hf _ _ _ hok

end Footprint

/-- Whatever it returns, `m` keeps a property of the disk as seen from the working directory. -/
def Preserves {α : Type} (Q : Disk → List String → Prop) (m : WorldM α) : Prop :=
  ∀ w : World, Q w.disk w.cwd → Q (m.run w).2.disk (m.run w).2.cwd

namespace Preserves

variable {α β γ ε ε' : Type} {Q : Disk → List String → Prop}

theorem of_disk {m : WorldM α} (h : ∀ w, (m.run w).2.disk = w.disk ∧ (m.run w).2.cwd = w.cwd) :
    Preserves Q m := fun w hw => by
  rw [(h w).1, (h w).2]
  exact hw

theorem pure (a : α) : Preserves Q (Pure.pure a : WorldM α) :=
  of_disk fun _ => ⟨rfl, rfl⟩

theorem bind {x : WorldM α} {f : α → WorldM β} (hx : Preserves Q x) (hf : ∀ a, Preserves Q (f a)) :
    Preserves Q (x >>= f) := fun w hw => by
  rw [WorldM.bind_run]
  exact hf _ _ (hx w hw)

theorem mapM {f : γ → WorldM α} (hf : ∀ c, Preserves Q (f c)) :
    ∀ cs : List γ, Preserves Q (cs.mapM f)
  | [] => pure []
  | c :: cs => by
    rw [List.mapM_cons]
    exact (hf c).bind fun _ => (mapM hf cs).bind fun _ => pure _

theorem reads {view : World → γ} {m : WorldE ε α} (h : Reads view m) : Preserves Q m.run :=
  of_disk fun w => by
    rw [h.keeps w]
    exact ⟨rfl, rfl⟩

theorem ioCheck : Preserves Q RunJournal.ioCheck.run :=
  of_disk fun w => by
    rw [ioCheck_effect]
    exact ⟨rfl, rfl⟩

theorem bindE {x : WorldE ε α} {f : α → WorldE ε β} (hx : Preserves Q x.run)
    (hf : ∀ a, Preserves Q (f a).run) : Preserves Q (x >>= f).run := by
  rw [ExceptT.run_bind]
  refine hx.bind fun r => ?_
  cases r with
  | error e => exact pure _
  | ok a => exact hf a

theorem throwE (e : ε) : Preserves Q (throw e : WorldE ε α).run :=
  of_disk fun _ => ⟨rfl, rfl⟩

theorem pureE (a : α) : Preserves Q (Pure.pure a : WorldE ε α).run :=
  of_disk fun _ => ⟨rfl, rfl⟩

theorem lift {m : WorldM α} (h : Preserves Q m) : Preserves Q (ExceptT.lift m : WorldE ε α).run :=
  fun w hw => h w hw

theorem mapError {m : WorldE ε α} (g : ε → ε') (h : Preserves Q m.run) :
    Preserves Q (WorldE.mapError g m).run := by
  intro w hw
  rw [show ((WorldE.mapError g m).run.run w).2 = (m.run.run w).2 from
    congrArg Prod.snd (WorldE.mapError_run g m w)]
  exact h w hw

theorem changeDisk {f : Disk → List String → Except IoError Disk}
    (hf : ∀ d cwd d', f d cwd = .ok d' → Q d cwd → Q d' cwd) :
    Preserves Q (RunJournal.changeDisk f).run := by
  intro w hw
  obtain ⟨hcwd, -, hdisk⟩ := changeDisk_effect f w
  rw [hcwd]
  rcases hdisk with hsame | hok
  · rw [hsame]
    exact hw
  · exact hf _ _ _ hok hw

end Preserves

end RunJournal
