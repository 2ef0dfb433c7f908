import RunJournal.World
/-!
# Running world computations

A world computation is run on a world and gives an answer and the next world. These equations
say what the primitives do when run, so that a proof about a larger computation peels it bind by
bind. The fault schedule is read through `World.pending` (what happens to the next fallible
write) and `World.advance` (the world once that write has been made).
-/

namespace RunJournal

namespace World

/-- What the fault schedule does to the next fallible write. -/
def pending (w : World) : Option Fault := w.faults.head?.join

/-- The world once the next fallible write has been made. -/
def advance (w : World) : World := { w with faults := w.faults.tail }

@[simp] theorem advance_disk (w : World) : w.advance.disk = w.disk := rfl

@[simp] theorem advance_cwd (w : World) : w.advance.cwd = w.cwd := rfl

@[simp] theorem advance_tails (w : World) : w.advance.tails = w.tails := rfl

/-- With nothing scheduled, every write goes through and the schedule stays empty. -/
theorem pending_of_faults_nil {w : World} (h : w.faults = []) : w.pending = none := by
  rw [pending, h]
  rfl

theorem advance_of_faults_nil {w : World} (h : w.faults = []) : w.advance = w := by
  cases w
  subst h
  rfl

end World

section Run

variable {ε α β : Type}

theorem WorldE.run_bind (x : WorldE ε α) (f : α → WorldE ε β) (w : World) :
    (x >>= f).run.run w = match x.run.run w with
      | (.ok a, w') => (f a).run.run w'
      | (.error e, w') => (.error e, w') := by
  simp only [ExceptT.run_bind, StateT.run_bind]
  rcases x.run.run w with ⟨_ | a, w'⟩ <;> rfl

theorem WorldE.run_pure (a : α) (w : World) : (pure a : WorldE ε α).run.run w = (.ok a, w) := rfl

theorem WorldE.run_throw (e : ε) (w : World) : (throw e : WorldE ε α).run.run w = (.error e, w) :=
  rfl

theorem WorldE.mapError_run {ε' : Type} (g : ε → ε') (m : WorldE ε α) (w : World) :
    (WorldE.mapError g m).run.run w = ((m.run.run w).1.mapError g, (m.run.run w).2) := by
  unfold WorldE.mapError
  rw [ExceptT.run_mk, StateT.run_bind]
  rcases m.run.run w with ⟨_ | a, w'⟩ <;> rfl

theorem onDisk_lift_run (f : Disk → List String → α) (w : World) :
    (ExceptT.lift (onDisk f) : WorldE ε α).run.run w = (.ok (f w.disk w.cwd), w) := rfl

/-- Calls made one after another: each runs on the world the one before it left. -/
theorem mapM_cons_run {γ : Type} (f : γ → WorldM α) (c : γ) (rest : List γ) (w : World) :
    ((c :: rest).mapM f).run w
      = (((f c).run w).1 :: ((rest.mapM f).run ((f c).run w).2).1,
          ((rest.mapM f).run ((f c).run w).2).2) := by
  rw [List.mapM_cons]
  rfl

theorem nextFault_run (w : World) : nextFault.run w = (w.pending, w.advance) := by
  rcases w with ⟨disk, cwd, clock, ids, tails, stores, _ | ⟨f, rest⟩⟩ <;> rfl

theorem onDisk_liftM_run (f : Disk → List String → α) (w : World) :
    (liftM (onDisk f) : WorldE ε α).run.run w = (.ok (f w.disk w.cwd), w) := rfl

theorem nextFault_lift_run (w : World) :
    (monadLift nextFault : WorldE ε (Option Fault)).run.run w = (.ok w.pending, w.advance) := by
  show (ExceptT.lift nextFault : WorldE ε (Option Fault)).run.run w = _
  simp only [ExceptT.run_lift, StateT.run_map, nextFault_run]
  rfl

theorem ioCheck_run (w : World) :
    ioCheck.run.run w = (if w.pending.isSome then .error .noSpace else .ok (), w.advance) := by
  rcases w with ⟨disk, cwd, clock, ids, tails, stores, _ | ⟨_ | f, rest⟩⟩ <;> rfl

theorem applyDisk_run (f : Disk → List String → Except IoError Disk) (w : World) :
    (applyDisk f).run.run w = match f w.disk w.cwd with
      | .ok d => (.ok (), { w with disk := d })
      | .error e => (.error e, w) := by
  show (match f w.disk w.cwd with
    | .ok d => (set { w with disk := d } : WorldE IoError Unit)
    | .error e => throw e).run.run w = _
  cases f w.disk w.cwd <;> rfl

theorem changeDisk_run (f : Disk → List String → Except IoError Disk) (w : World) :
    (changeDisk f).run.run w =
      if w.pending.isSome then (.error .noSpace, w.advance) else (applyDisk f).run.run w.advance := by
  rw [changeDisk, WorldE.run_bind, ioCheck_run]
  by_cases hp : w.pending.isSome
  · simp only [hp, if_true]
  · simp only [hp, if_false, Bool.false_eq_true]

theorem applyDisk_run_ok {f : Disk → List String → Except IoError Disk} {w : World} {d : Disk}
    (hok : f w.disk w.cwd = .ok d) : (applyDisk f).run.run w = (.ok (), { w with disk := d }) := by
  rw [applyDisk_run, hok]

theorem applyDisk_run_error {f : Disk → List String → Except IoError Disk} {w : World} {e : IoError}
    (herr : f w.disk w.cwd = .error e) : (applyDisk f).run.run w = (.error e, w) := by
  rw [applyDisk_run, herr]

/-- A change the schedule lets through and that leaves the disk as it is only takes a fault. -/
theorem changeDisk_run_same {f : Disk → List String → Except IoError Disk} {w : World}
    (hpass : w.pending = none) (hsame : f w.disk w.cwd = .ok w.disk) :
    (changeDisk f).run.run w = (.ok (), w.advance) := by
  rw [changeDisk_run, hpass]
  simp only [Option.isSome_none, Bool.false_eq_true, if_false]
  rw [applyDisk_run_ok (w := w.advance) hsame]
  rfl

/-! An append under each kind of scheduled fault. -/

theorem appendFile_run_none {path : String} {bytes : List UInt8} {w : World}
    (h : w.pending = none) :
    (appendFile path bytes).run.run w
      = (applyDisk fun d cwd => d.append cwd path bytes).run.run w.advance := by
  rw [appendFile, WorldE.run_bind, nextFault_lift_run, h]

theorem appendFile_run_fail {path : String} {bytes : List UInt8} {w : World}
    (h : w.pending = some .fail) :
    (appendFile path bytes).run.run w = (.error .noSpace, w.advance) := by
  rw [appendFile, WorldE.run_bind, nextFault_lift_run, h]
  rfl

theorem appendFile_run_tear {path : String} {bytes : List UInt8} {w : World} {n : Nat}
    (h : w.pending = some (.tear n)) :
    (appendFile path bytes).run.run w =
      match (applyDisk fun d cwd => d.append cwd path (bytes.take n)).run.run w.advance with
      | (.ok (), w') => (.error .noSpace, w')
      | (.error e, w') => (.error e, w') := by
  rw [appendFile, WorldE.run_bind, nextFault_lift_run, h]
  show ((applyDisk fun d cwd => d.append cwd path (bytes.take n)) >>= fun _ =>
    (throw .noSpace : WorldE IoError Unit)).run.run w.advance = _
  rw [WorldE.run_bind]
  generalize (applyDisk fun d cwd => d.append cwd path (bytes.take n)).run.run w.advance = r
  rcases r with ⟨_ | _, w'⟩ <;> rfl

/-! What a fallible write can leave. -/

/-- A change of the disk leaves the disk as it was or as the change makes it; nothing else but
the fault schedule moves. -/
theorem changeDisk_effect (f : Disk → List String → Except IoError Disk) (w : World) :
    ((changeDisk f).run.run w).2.cwd = w.cwd ∧ ((changeDisk f).run.run w).2.tails = w.tails ∧
      (((changeDisk f).run.run w).2.disk = w.disk ∨
        f w.disk w.cwd = .ok ((changeDisk f).run.run w).2.disk) := by
  rw [changeDisk_run]
  split
  · exact ⟨rfl, rfl, .inl rfl⟩
  · rw [applyDisk_run]
    simp only [World.advance_disk, World.advance_cwd]
    cases hf : f w.disk w.cwd with
    | error e => exact ⟨rfl, rfl, .inl rfl⟩
    | ok d => exact ⟨rfl, rfl, .inr rfl⟩

theorem changeDisk_ok {f : Disk → List String → Except IoError Disk} {w : World}
    (hok : ((changeDisk f).run.run w).1 = .ok ()) :
    f w.disk w.cwd = .ok ((changeDisk f).run.run w).2.disk := by
  rw [changeDisk_run] at hok ⊢
  by_cases hp : w.pending.isSome
  · simp only [hp, if_true] at hok
    cases hok
  · simp only [hp, Bool.false_eq_true, if_false, applyDisk_run, World.advance_disk,
      World.advance_cwd] at hok ⊢
    cases hf : f w.disk w.cwd with
    | error e =>
      rw [hf] at hok
      cases hok
    | ok d => rfl

theorem changeDisk_error {f : Disk → List String → Except IoError Disk} {w : World} {e : IoError}
    (herr : ((changeDisk f).run.run w).1 = .error e) : ((changeDisk f).run.run w).2.disk = w.disk := by
  rw [changeDisk_run] at herr ⊢
  by_cases hp : w.pending.isSome
  · simp only [hp, if_true]
    rfl
  · simp only [hp, Bool.false_eq_true, if_false, applyDisk_run, World.advance_disk,
      World.advance_cwd] at herr ⊢
    cases hf : f w.disk w.cwd with
    | error e => rfl
    | ok d =>
      rw [hf] at herr
      cases herr

/-- An append leaves the disk as it was or with a prefix of its bytes appended, all of them when
it succeeds. -/
theorem appendFile_effect (path : String) (bytes : List UInt8) (w : World) :
    ((appendFile path bytes).run.run w).2.cwd = w.cwd ∧
      ((appendFile path bytes).run.run w).2.tails = w.tails ∧
      (((appendFile path bytes).run.run w).2.disk = w.disk ∨
        ∃ n, w.disk.append w.cwd path (bytes.take n) = .ok ((appendFile path bytes).run.run w).2.disk) ∧
      (((appendFile path bytes).run.run w).1 = .ok () →
        w.disk.append w.cwd path bytes = .ok ((appendFile path bytes).run.run w).2.disk) := by
  cases hp : w.pending with
  | none =>
    rw [appendFile_run_none hp, applyDisk_run]
    simp only [World.advance_disk, World.advance_cwd]
    cases ha : w.disk.append w.cwd path bytes with
    | error e => exact ⟨rfl, rfl, .inl rfl, fun h => by cases h⟩
    | ok d => exact ⟨rfl, rfl, .inr ⟨bytes.length, by rw [List.take_length, ha]⟩, fun _ => rfl⟩
  | some f =>
    cases f with
    | fail =>
      rw [appendFile_run_fail hp]
      exact ⟨rfl, rfl, .inl rfl, fun h => by cases h⟩
    | tear n =>
      rw [appendFile_run_tear hp, applyDisk_run]
      simp only [World.advance_disk, World.advance_cwd]
      cases ha : w.disk.append w.cwd path (bytes.take n) with
      | error e => exact ⟨rfl, rfl, .inl rfl, fun h => by cases h⟩
      | ok d => exact ⟨rfl, rfl, .inr ⟨n, ha⟩, fun h => by cases h⟩

theorem ioCheck_effect (w : World) : (ioCheck.run.run w).2 = w.advance := by
  rw [ioCheck_run]

theorem lift_ioCheck_run {ε : Type} (w : World) :
    (ExceptT.lift ioCheck.run : WorldE ε (Except IoError Unit)).run.run w
      = (.ok (ioCheck.run.run w).1, w.advance) := by
  rw [← ioCheck_effect]
  rfl

/-- A bind that succeeds ran its first part to success and its second from where that left. -/
theorem WorldE.bind_eq_ok {x : WorldE ε α} {f : α → WorldE ε β} {b : β} {w w' : World}
    (h : (x >>= f).run.run w = (.ok b, w')) :
    ∃ a w₁, x.run.run w = (.ok a, w₁) ∧ (f a).run.run w₁ = (.ok b, w') := by
  rw [WorldE.run_bind] at h
  rcases hx : x.run.run w with ⟨_ | a, w₁⟩ <;> rw [hx] at h
  · cases h
  · exact ⟨a, w₁, rfl, h⟩

/-- A bind that fails failed in its first part, or ran it to success and failed in the second. -/
theorem WorldE.bind_eq_error {x : WorldE ε α} {f : α → WorldE ε β} {e : ε} {w w' : World}
    (h : (x >>= f).run.run w = (.error e, w')) :
    x.run.run w = (.error e, w') ∨
      ∃ a w₁, x.run.run w = (.ok a, w₁) ∧ (f a).run.run w₁ = (.error e, w') := by
  rw [WorldE.run_bind] at h
  rcases hx : x.run.run w with ⟨_ | a, w₁⟩ <;> rw [hx] at h
  · cases h
    exact .inl rfl
  · exact .inr ⟨a, w₁, rfl, h⟩

theorem WorldE.lift_run (x : WorldM α) (w : World) :
    (ExceptT.lift x : WorldE ε α).run.run w = (.ok (x.run w).1, (x.run w).2) := by
  simp only [ExceptT.run_lift, StateT.run_map]
  rfl

theorem WorldE.liftM_run (x : WorldM α) (w : World) :
    (liftM x : WorldE ε α).run.run w = (.ok (x.run w).1, (x.run w).2) :=
  WorldE.lift_run x w

theorem WorldM.bind_run (x : WorldM α) (f : α → WorldM β) (w : World) :
    (x >>= f).run w = (f (x.run w).1).run (x.run w).2 := rfl

theorem WorldM.bind_run_snd (x : WorldM α) (f : α → WorldM β) (w : World) :
    ((x >>= f).run w).2 = ((f (x.run w).1).run (x.run w).2).2 := rfl

theorem onDisk_run (f : Disk → List String → α) (w : World) :
    (onDisk f).run w = (f w.disk w.cwd, w) := rfl

end Run

/-! ## Computations that only read

Most of what a call does before it writes is reading: the lock, the approval, the log's tail, the
current trace. `Reads view m` says `m` leaves the world as it is and that its answer depends on the
world only through `view`; it is closed under `bind`, so a reading function is shown to read by
following its definition. -/

section Reads

variable {ε ε' α β γ δ : Type}

/-- A computation that leaves the world as it is, and whose answer depends on the world only
through `view`. -/
structure Reads (view : World → γ) (m : WorldE ε α) : Prop where
  keeps : ∀ w, (m.run.run w).2 = w
  answer : ∀ w w', view w = view w' → (m.run.run w).1 = (m.run.run w').1

namespace Reads

variable {view : World → γ}

theorem run_eq {m : WorldE ε α} (h : Reads view m) (w : World) : m.run.run w = ((m.run.run w).1, w) :=
  Prod.ext rfl (h.keeps w)

theorem run_bind {x : WorldE ε α} (hx : Reads view x) (f : α → WorldE ε β) (w : World) :
    (x >>= f).run.run w = match (x.run.run w).1 with
      | .ok a => (f a).run.run w
      | .error e => (.error e, w) := by
  rw [WorldE.run_bind, hx.run_eq w]
  cases (x.run.run w).1 <;> rfl

/-- A bind after a read that succeeds read successfully and went on from the same world. -/
theorem bind_eq_ok {x : WorldE ε α} {f : α → WorldE ε β} {b : β} {w w' : World}
    (hx : Reads view x) (h : (x >>= f).run.run w = (.ok b, w')) :
    ∃ a, (x.run.run w).1 = .ok a ∧ (f a).run.run w = (.ok b, w') := by
  rw [hx.run_bind] at h
  rcases hr : (x.run.run w).1 with e | a <;> rw [hr] at h
  · cases h
  · exact ⟨a, rfl, h⟩

/-- A bind after a read that fails failed in the read, leaving the world, or in what followed. -/
theorem bind_eq_error {x : WorldE ε α} {f : α → WorldE ε β} {e : ε} {w w' : World}
    (hx : Reads view x) (h : (x >>= f).run.run w = (.error e, w')) :
    (x.run.run w).1 = .error e ∧ w' = w ∨
      ∃ a, (x.run.run w).1 = .ok a ∧ (f a).run.run w = (.error e, w') := by
  rw [hx.run_bind] at h
  rcases hr : (x.run.run w).1 with _ | a <;> rw [hr] at h
  · cases h
    exact .inl ⟨rfl, rfl⟩
  · exact .inr ⟨a, rfl, h⟩

theorem run_bind_ok {x : WorldE ε α} {f : α → WorldE ε β} {a : α} {w : World} (hx : Reads view x)
    (ha : (x.run.run w).1 = .ok a) : (x >>= f).run.run w = (f a).run.run w := by
  rw [hx.run_bind, ha]

theorem ret (a : α) : Reads view (pure a : WorldE ε α) :=
  ⟨fun _ => rfl, fun _ _ _ => rfl⟩

theorem fail (e : ε) : Reads view (throw e : WorldE ε α) :=
  ⟨fun _ => rfl, fun _ _ _ => rfl⟩

theorem bind {x : WorldE ε α} {f : α → WorldE ε β} (hx : Reads view x) (hf : ∀ a, Reads view (f a)) :
    Reads view (x >>= f) := by
  constructor
  · intro w
    rw [hx.run_bind]
    cases (x.run.run w).1 with
    | error e => rfl
    | ok a => exact (hf a).keeps w
  · intro w w' hv
    rw [hx.run_bind, hx.run_bind, hx.answer w w' hv]
    cases (x.run.run w').1 with
    | error e => rfl
    | ok a => exact (hf a).answer w w' hv

theorem onDisk {f : Disk → List String → α}
    (hf : ∀ w w', view w = view w' → f w.disk w.cwd = f w'.disk w'.cwd) :
    Reads view (ExceptT.lift (RunJournal.onDisk f) : WorldE ε α) :=
  ⟨fun _ => rfl, fun w w' hv => by simp only [onDisk_lift_run, hf w w' hv]⟩

theorem onDiskM {f : Disk → List String → α}
    (hf : ∀ w w', view w = view w' → f w.disk w.cwd = f w'.disk w'.cwd) :
    Reads view (liftM (RunJournal.onDisk f) : WorldE ε α) :=
  ⟨fun _ => rfl, fun w w' hv => by simp only [onDisk_liftM_run, hf w w' hv]⟩

theorem mapError {m : WorldE ε α} (g : ε → ε') (hm : Reads view m) :
    Reads view (WorldE.mapError g m) := by
  constructor
  · intro w
    rw [WorldE.mapError_run, hm.keeps w]
  · intro w w' hv
    rw [WorldE.mapError_run, WorldE.mapError_run, hm.answer w w' hv]

theorem mono {view' : World → δ} {m : WorldE ε α}
    (hv : ∀ w w', view' w = view' w' → view w = view w') (h : Reads view m) : Reads view' m :=
  ⟨h.keeps, fun w w' hw => h.answer w w' (hv w w' hw)⟩

end Reads

end Reads

end RunJournal
