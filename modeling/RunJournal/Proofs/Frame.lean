import RunJournal.Proofs.Disk
/-!
# What a change of the disk leaves

Every change of the disk is of one of two kinds. Making directories, and appending nothing to a
file, only add entries where there were none (`Disk.Fills`). Appending, cutting, replacing a file
and setting bits change the one entry their path resolves to and no other, and leave directories
directories (`Disk.Only`).

`Disk.DirsAlong` says the directories on the way to a place are there; it holds of the working
directory in every world a process can be in, and a directory's path then leads to a directory.
`Disk.HasDir` says the same of one directory's path, and survives every change that keeps
directories.

`Disk.KeepsFilesOff` names a change by the places it may touch: every file elsewhere keeps its
bytes and bits, and none appears or goes away there.
-/

namespace RunJournal

namespace Disk

open RunJournal.Path

section Fills

variable {d d₁ d₂ d₃ d' : Disk} {cwd p : List String} {path : String}

/-- Every entry of `d` is in `d'` as it was: `d'` only adds entries. -/
def Fills (d d' : Disk) : Prop := ∀ x e, d.get? x = some e → d'.get? x = some e

theorem Fills.refl (d : Disk) : Fills d d := fun _ _ h => h

theorem Fills.trans (h₁₂ : Fills d₁ d₂) (h₂₃ : Fills d₂ d₃) : Fills d₁ d₃ :=
  fun x e h => h₂₃ x e (h₁₂ x e h)

theorem Fills.keepsDirs (h : Fills d d') : KeepsDirs d d' := fun x m hx => ⟨m, h x _ hx⟩

theorem fills_put_of_none (hnone : d.get? p = none) (e : Entry) : Fills d (d.put p e) := by
  intro x e' hx
  have hxp : x ≠ p := by
    rintro rfl
    rw [hnone] at hx
    cases hx
  rw [get?_put_ne _ hxp]
  exact hx

theorem fills_put_same {e : Entry} (hsame : d.get? p = some e) : Fills d (d.put p e) := by
  intro x e' hx
  rw [get?_put]
  split
  · next hxp =>
    rw [hxp.1, hsame] at hx
    exact hx
  · exact hx

def AddsDirs (d d' : Disk) : Prop :=
  Fills d d' ∧ ∀ x e, d'.get? x = some e → d.get? x = some e ∨ ∃ m, e = .dir m

theorem AddsDirs.refl (d : Disk) : AddsDirs d d := ⟨Fills.refl d, fun _ _ h => .inl h⟩

theorem AddsDirs.trans (h₁₂ : AddsDirs d₁ d₂) (h₂₃ : AddsDirs d₂ d₃) : AddsDirs d₁ d₃ := by
  refine ⟨h₁₂.1.trans h₂₃.1, fun x e hx => ?_⟩
  rcases h₂₃.2 x e hx with h₂ | hdir
  · exact h₁₂.2 x e h₂
  · exact .inr hdir

theorem addsDirs_put_dir (hnone : d.get? p = none) (m : Nat) : AddsDirs d (d.put p (.dir m)) := by
  refine ⟨fills_put_of_none hnone _, fun x e hx => ?_⟩
  rw [get?_put] at hx
  split at hx
  · cases hx
    exact .inr ⟨m, rfl⟩
  · exact .inl hx

theorem mkdir_addsDirs (h : d.mkdir cwd path = .ok d') : AddsDirs d d' := by
  simp only [mkdir, bind, Except.bind] at h
  split at h
  · cases h
  · next q _ =>
    split at h
    · cases h
    · split at h
      · cases h
      · next hnone =>
        split at h
        · split at h
          · cases h
            exact addsDirs_put_dir hnone _
          · cases h
        · cases h
        · cases h

theorem createDirAll_go_addsDirs {fuel : Nat} (h : createDirAll.go d cwd fuel path = .ok d') :
    AddsDirs d d' := by
  induction fuel generalizing path d' with
  | zero => cases h
  | succ fuel ih =>
    simp only [createDirAll.go] at h
    split at h
    · cases h
      exact AddsDirs.refl d
    · split at h
      · cases h
        exact mkdir_addsDirs ‹_›
      · split at h
        · cases h
        · simp only [bind, Except.bind] at h
          split at h
          · cases h
          · next d₁ hgo =>
            have h₁ := ih hgo
            split at h
            · cases h
              exact h₁.trans (mkdir_addsDirs ‹_›)
            · split at h
              · cases h
                exact h₁
              · cases h
      · split at h
        · cases h
          exact AddsDirs.refl d
        · cases h

theorem createDirAll_addsDirs (h : d.createDirAll cwd path = .ok d') : AddsDirs d d' :=
  createDirAll_go_addsDirs h

/-- Opening for writing finds the file the path resolves to, or, when asked to, a place for a new
empty one in a directory. -/
theorem openWrite_ok {create : Bool} {q : List String} {bytes : List UInt8} {mode : Nat}
    (h : d.openWrite cwd path create = .ok (q, bytes, mode)) :
    d.locate cwd path = .ok q ∧ (d.get? q = some (.file bytes mode) ∨
      (d.get? q = none ∧ bytes = [] ∧ mode = fileMode)) := by
  simp only [openWrite, bind, Except.bind, pure, Except.pure] at h
  split at h
  · cases h
  · next q' hloc =>
    split at h
    · next b m hfile =>
      split at h
      · cases h
        exact ⟨hloc, .inl hfile⟩
      · cases h
    · cases h
    · next hnone =>
      cases create
      · simp only [Bool.not_false, ↓reduceIte] at h
        cases h
      · simp only [Bool.not_true, Bool.false_eq_true, ↓reduceIte] at h
        split at h
        · split at h
          · cases h
            exact ⟨hloc, .inr ⟨hnone, rfl, rfl⟩⟩
          · cases h
        · cases h
        · cases h

theorem openWrite_not_dir {create : Bool} {q : List String} {bytes : List UInt8} {mode : Nat}
    (h : d.openWrite cwd path create = .ok (q, bytes, mode)) : ∀ m, d.get? q ≠ some (.dir m) := by
  intro m hdir
  rcases (openWrite_ok h).2 with hfile | ⟨hnone, -⟩
  · rw [hfile] at hdir
    cases hdir
  · rw [hnone] at hdir
    cases hdir

/-- An append opens the file, making it when missing, and puts its bytes and then the new ones
there. -/
theorem append_eq_ok {bytes : List UInt8} (h : d.append cwd path bytes = .ok d') :
    ∃ q old mode, d.openWrite cwd path true = .ok (q, old, mode) ∧
      d' = d.put q (.file (old ++ bytes) mode) := by
  simp only [append, bind, Except.bind, pure, Except.pure] at h
  split at h
  · cases h
  · next r hopen =>
    obtain ⟨q, old, mode⟩ := r
    cases h
    exact ⟨q, old, mode, hopen, rfl⟩

theorem setLen_eq_ok {len : Nat} (h : d.setLen cwd path len = .ok d') :
    ∃ q old mode, d.openWrite cwd path false = .ok (q, old, mode) ∧
      d' = d.put q (.file (old.take len ++ List.replicate (len - old.length) 0) mode) := by
  simp only [setLen, bind, Except.bind, pure, Except.pure] at h
  split at h
  · cases h
  · next r hopen =>
    obtain ⟨q, old, mode⟩ := r
    cases h
    exact ⟨q, old, mode, hopen, rfl⟩

end Fills

section Only

variable {d d' : Disk} {cwd : List String} {path : String}

/-- `d'` differs from `d` at most at `L`, and keeps every directory a directory. -/
def Only (L : List String) (d d' : Disk) : Prop :=
  KeepsDirs d d' ∧ ∀ x, x ≠ L → d'.get? x = d.get? x

theorem only_put_file {L : List String} (hnodir : ∀ m, d.get? L ≠ some (.dir m)) (b : List UInt8)
    (m : Nat) : Only L d (d.put L (.file b m)) :=
  ⟨keepsDirs_put _ hnodir, fun _ hx => get?_put_ne _ hx⟩

theorem only_put_dir {L : List String} {m : Nat} (hdir : d.get? L = some (.dir m)) (m' : Nat) :
    Only L d (d.put L (.dir m')) := by
  refine ⟨fun x k hx => ?_, fun _ hx => get?_put_ne _ hx⟩
  by_cases hxL : x = L
  · subst hxL
    rw [get?_put]
    split
    · exact ⟨m', rfl⟩
    · exact ⟨k, hx⟩
  · exact ⟨k, by rw [get?_put_ne _ hxL, hx]⟩

theorem append_only {bytes : List UInt8} (h : d.append cwd path bytes = .ok d') :
    ∃ L, d.locate cwd path = .ok L ∧ Only L d d' := by
  obtain ⟨q, old, mode, hopen, rfl⟩ := append_eq_ok h
  exact ⟨q, (openWrite_ok hopen).1, only_put_file (openWrite_not_dir hopen) _ _⟩

/-- After an append the file its path resolves to ends with the bytes appended. -/
theorem append_file {bytes : List UInt8} {L : List String} (h : d.append cwd path bytes = .ok d')
    (hL : d.locate cwd path = .ok L) (hLne : L ≠ []) :
    ∃ old m, d'.get? L = some (.file (old ++ bytes) m) := by
  obtain ⟨q, old, mode, hopen, rfl⟩ := append_eq_ok h
  have hq : L = q := Except.ok.inj (hL.symm.trans (openWrite_ok hopen).1)
  subst hq
  exact ⟨old, mode, get?_put_self _ hLne⟩

theorem setLen_only {len : Nat} (h : d.setLen cwd path len = .ok d') :
    ∃ L, d.locate cwd path = .ok L ∧ Only L d d' := by
  obtain ⟨q, old, mode, hopen, rfl⟩ := setLen_eq_ok h
  exact ⟨q, (openWrite_ok hopen).1, only_put_file (openWrite_not_dir hopen) _ _⟩

theorem replace_only {dir name : String} {bytes : List UInt8}
    (h : d.replace cwd dir name bytes = .ok d') :
    ∃ L, d.locate cwd (join dir name) = .ok L ∧ Only L d d' ∧
      d'.get? L = some (.file bytes privateMode) := by
  simp only [replace, bind, Except.bind, pure, Except.pure] at h
  split at h
  · cases h
  · split at h
    · split at h
      · split at h
        · cases h
        · next L hloc =>
          split at h
          · cases h
          · next hnodir =>
            cases h
            have hL : L ≠ [] := by
              rintro rfl
              exact hnodir dirMode (by simp [get?])
            exact ⟨L, hloc, only_put_file (fun m hdir => hnodir m hdir) _ _, get?_put_self _ hL⟩
      · cases h
    · cases h

/-- Setting bits keeps what the path resolves to a file or a directory as it was. -/
theorem chmod_only {mode : Nat} (h : d.chmod cwd path mode = .ok d') :
    ∃ L, d.locate cwd path = .ok L ∧ Only L d d' ∧
      (∀ b m, d.get? L = some (.file b m) → d'.get? L = some (.file b mode)) ∧
      ∀ m, d.get? L = some (.dir m) → ∃ m', d'.get? L = some (.dir m') := by
  simp only [chmod, bind, Except.bind, pure, Except.pure] at h
  split at h
  · cases h
  · next L hloc =>
    split at h
    · next b m hfile =>
      cases h
      have hL : L ≠ [] := by
        rintro rfl
        simp [get?] at hfile
      refine ⟨L, hloc, only_put_file (fun m hdir => by rw [hfile] at hdir; cases hdir) _ _,
        fun b' m' hfile' => ?_, fun m' hdir => ?_⟩
      · rw [hfile] at hfile'
        cases hfile'
        exact get?_put_self _ hL
      · rw [hfile] at hdir
        cases hdir
    · next hdir =>
      cases h
      have honly := only_put_dir hdir mode
      refine ⟨L, hloc, honly, fun b m hfile => ?_, fun m' _ => honly.1 L _ hdir⟩
      rw [hdir] at hfile
      cases hfile
    · cases h

/-- A path that led elsewhere than the changed place still leads there, and reads as before. -/
theorem Only.read_eq {L P : List String} (h : Only L d d') (hloc : d.locate cwd path = .ok P)
    (hPL : P ≠ L) : d'.read cwd path = d.read cwd path := by
  have hloc' : d'.locate cwd path = .ok P := walk_keepsDirs h.1 hloc
  simp only [read, metadata, hloc, hloc', bind, Except.bind, h.2 P hPL]

theorem chmod_read {mode : Nat} {q : String} {b : List UInt8} (h : d.chmod cwd path mode = .ok d')
    (hmode : canRead mode) (hb : d.read cwd q = .ok b) : d'.read cwd q = .ok b := by
  obtain ⟨L, -, honly, hfile, -⟩ := chmod_only h
  obtain ⟨m, hmeta, -⟩ := metadata_of_read hb
  obtain ⟨P, hloc, hget⟩ := metadata_eq_ok_iff.mp hmeta
  by_cases hPL : P = L
  · subst hPL
    exact read_of_file (walk_keepsDirs honly.1 hloc) (hfile b m hget) hmode
  · rw [honly.read_eq hloc hPL, hb]

theorem replace_read {dir name : String} {bytes : List UInt8}
    (h : d.replace cwd dir name bytes = .ok d') : d'.read cwd (join dir name) = .ok bytes := by
  obtain ⟨L, hloc, honly, hL⟩ := replace_only h
  exact read_of_file (walk_keepsDirs honly.1 hloc) hL canRead_privateMode

theorem replace_read_sibling {dir name other : String} {bytes b : List UInt8}
    (h : d.replace cwd dir name bytes = .ok d') (hname : PlainName name) (hother : PlainName other)
    (hne : other ≠ name) (hb : d.read cwd (join dir other) = .ok b) :
    d'.read cwd (join dir other) = .ok b := by
  obtain ⟨L, hloc, honly, -⟩ := replace_only h
  obtain ⟨m, hmeta, -⟩ := metadata_of_read hb
  obtain ⟨P, hP, -⟩ := metadata_eq_ok_iff.mp hmeta
  rw [honly.read_eq hP (locate_join_ne hother hname hne hP hloc), hb]

/-- A change at one place that makes no directory there keeps every directory of the new disk a
directory of the old one. -/
theorem Only.keepsDirs_back {L : List String} (h : Only L d d')
    (hL : ∀ m, d'.get? L = some (.dir m) → ∃ m', d.get? L = some (.dir m')) : KeepsDirs d' d := by
  intro x m hx
  by_cases hxL : x = L
  · subst hxL
    exact hL m hx
  · exact ⟨m, by rw [← h.2 x hxL, hx]⟩

/-- Off the changed place, what a path shows on the new disk it showed on the old one. -/
theorem Only.metadata_of_ok {L : List String} {e : Entry} (h : Only L d d') (hback : KeepsDirs d' d)
    (hmeta : d'.metadata cwd path = .ok e) (hout : place cwd path ≠ L) :
    d.metadata cwd path = .ok e := by
  obtain ⟨P, hloc, hget⟩ := metadata_eq_ok_iff.mp hmeta
  rw [← locate_place hloc] at hout
  exact metadata_of_get? (walk_keepsDirs hback hloc) (by rw [← h.2 P hout]; exact hget)

/-- What is at `path` is missing, or its owner may read it. -/
def Opens (d : Disk) (cwd : List String) (path : String) : Prop :=
  ∀ e, d.metadata cwd path = .ok e → canRead e.mode

theorem Opens.replace {dir name : String} {bytes : List UInt8} (ho : Opens d cwd path)
    (h : d.replace cwd dir name bytes = .ok d') (hout : place cwd path ≠ place cwd (join dir name)) :
    Opens d' cwd path := by
  intro e hmeta
  obtain ⟨L, hloc, honly, hL⟩ := Disk.replace_only h
  rw [← locate_place hloc] at hout
  refine ho e (honly.metadata_of_ok (honly.keepsDirs_back fun m hm => ?_) hmeta hout)
  rw [hL] at hm
  cases hm

/-- After one entry is put, a path shows that entry or what it showed before, when the new disk
has no directory the old one lacked. -/
theorem metadata_put_of_ok {L : List String} {e₀ e : Entry} (hback : KeepsDirs (d.put L e₀) d)
    (hmeta : (d.put L e₀).metadata cwd path = .ok e) : d.metadata cwd path = .ok e ∨ e = e₀ := by
  obtain ⟨P, hloc, hget⟩ := metadata_eq_ok_iff.mp hmeta
  rw [get?_put] at hget
  split at hget
  · exact .inr (Option.some.inj hget).symm
  · exact .inl (metadata_of_get? (walk_keepsDirs hback hloc) hget)

theorem Opens.chmod {p : String} {mode : Nat} (ho : Opens d cwd path)
    (h : d.chmod cwd p mode = .ok d') (hmode : canRead mode) : Opens d' cwd path := by
  intro e hmeta
  simp only [Disk.chmod, bind, Except.bind, pure, Except.pure] at h
  split at h
  · cases h
  · next L hloc =>
    split at h
    · next b m hfile =>
      cases h
      have hback : KeepsDirs (d.put L (.file b mode)) d := fun x m' hx => by
        rw [get?_put] at hx
        split at hx
        · cases hx
        · exact ⟨m', hx⟩
      rcases metadata_put_of_ok hback hmeta with hold | rfl
      · exact ho e hold
      · exact hmode
    · next m hdir =>
      cases h
      have hback : KeepsDirs (d.put L (.dir mode)) d := fun x m' hx => by
        rw [get?_put] at hx
        split at hx
        · next hxL => exact ⟨m, by rw [hxL.1]; exact hdir⟩
        · exact ⟨m', hx⟩
      rcases metadata_put_of_ok hback hmeta with hold | rfl
      · exact ho e hold
      · exact hmode
    · cases h

end Only

section Files

/-! A change aimed at some places keeps every file elsewhere: same bytes, same bits, and no file
appears or goes away there. Places are those paths lead to (`Disk.place`), so a footprint can be
given by paths before anything on the disk is looked at. -/

variable {d d₁ d₂ d₃ d' : Disk} {cwd : List String} {path : String} {S S' : List (List String)}

/-- The bytes and bits of the file at place `x`, if a file is there. -/
def fileAt (d : Disk) (x : List String) : Option (List UInt8 × Nat) :=
  match d.get? x with
  | some (.file b m) => some (b, m)
  | _ => none

theorem fileAt_eq_some {x : List String} {b : List UInt8} {m : Nat} :
    d.fileAt x = some (b, m) ↔ d.get? x = some (.file b m) := by
  unfold fileAt
  rcases d.get? x with _ | (_ | _) <;> simp

/-- From `d` to `d'` every directory stayed a directory, and every file outside the places `S`
stayed as it was, with none appearing there. -/
def KeepsFilesOff (S : List (List String)) (d d' : Disk) : Prop :=
  KeepsDirs d d' ∧ ∀ x ∉ S, d'.fileAt x = d.fileAt x

theorem KeepsFilesOff.refl (S : List (List String)) (d : Disk) : KeepsFilesOff S d d :=
  ⟨KeepsDirs.refl d, fun _ _ => rfl⟩

theorem KeepsFilesOff.trans (h₁₂ : KeepsFilesOff S d₁ d₂) (h₂₃ : KeepsFilesOff S' d₂ d₃) :
    KeepsFilesOff (S ++ S') d₁ d₃ := by
  refine ⟨h₁₂.1.trans h₂₃.1, fun x hx => ?_⟩
  rw [List.mem_append, not_or] at hx
  rw [h₂₃.2 x hx.2, h₁₂.2 x hx.1]

theorem KeepsFilesOff.mono (h : KeepsFilesOff S d d') (hS : ∀ x ∈ S, x ∈ S') :
    KeepsFilesOff S' d d' :=
  ⟨h.1, fun x hx => h.2 x fun hmem => hx (hS x hmem)⟩

theorem Only.keepsFilesOff {L : List String} (h : Only L d d') : KeepsFilesOff [L] d d' := by
  refine ⟨h.1, fun x hx => ?_⟩
  rw [fileAt, fileAt, h.2 x (by simpa using hx)]

theorem fileAt_of_dir {x : List String} {m : Nat} (h : d.get? x = some (.dir m)) :
    d.fileAt x = none := by
  rw [fileAt, h]

/-- A place whose file came through a change is no longer part of its footprint. -/
theorem KeepsFilesOff.erase {x : List String} (h : KeepsFilesOff (x :: S) d d')
    (hx : d'.fileAt x = d.fileAt x) : KeepsFilesOff S d d' := by
  refine ⟨h.1, fun y hy => ?_⟩
  by_cases hyx : y = x
  · rw [hyx, hx]
  · exact h.2 y (by simp [hyx, hy])

theorem AddsDirs.fileAt_eq (h : AddsDirs d d') (x : List String) : d'.fileAt x = d.fileAt x := by
  unfold fileAt
  cases hd : d.get? x with
  | some e => rw [h.1 x e hd]
  | none =>
    cases hd' : d'.get? x with
    | none => rfl
    | some e =>
      rcases h.2 x e hd' with hsome | ⟨m, rfl⟩
      · rw [hd] at hsome
        cases hsome
      · rfl

theorem AddsDirs.keepsFilesOff (h : AddsDirs d d') : KeepsFilesOff [] d d' :=
  ⟨h.1.keepsDirs, fun x _ => h.fileAt_eq x⟩

theorem createDirAll_keepsFilesOff (h : d.createDirAll cwd path = .ok d') :
    KeepsFilesOff [] d d' :=
  (createDirAll_addsDirs h).keepsFilesOff

theorem replace_keepsFilesOff {dir name : String} {bytes : List UInt8}
    (h : d.replace cwd dir name bytes = .ok d') :
    KeepsFilesOff [place cwd (join dir name)] d d' ∧
      d'.fileAt (place cwd (join dir name)) = some (bytes, privateMode) := by
  obtain ⟨L, hloc, honly, hL⟩ := replace_only h
  rw [← locate_place hloc]
  exact ⟨honly.keepsFilesOff, fileAt_eq_some.mpr hL⟩

/-- Setting bits keeps every file's bytes, and a file stays where it was with the new bits. -/
theorem chmod_keepsFilesOff {mode : Nat} (h : d.chmod cwd path mode = .ok d') :
    KeepsFilesOff [place cwd path] d d' ∧
      d'.fileAt (place cwd path) = (d.fileAt (place cwd path)).map fun f => (f.1, mode) := by
  obtain ⟨L, hloc, honly, hfile, hdir⟩ := chmod_only h
  rw [← locate_place hloc]
  refine ⟨honly.keepsFilesOff, ?_⟩
  unfold fileAt
  rcases hL : d.get? L with _ | (⟨b, m⟩ | m)
  · simp only [chmod, bind, Except.bind, hloc, hL] at h
    cases h
  · rw [hfile b m hL]
    rfl
  · obtain ⟨m', hm'⟩ := hdir m hL
    rw [hm']
    rfl

theorem KeepsFilesOff.read_eq {b : List UInt8} (h : KeepsFilesOff S d d')
    (hout : place cwd path ∉ S) (hb : d.read cwd path = .ok b) : d'.read cwd path = .ok b := by
  obtain ⟨m, hmeta, hm⟩ := metadata_of_read hb
  obtain ⟨P, hloc, hget⟩ := metadata_eq_ok_iff.mp hmeta
  have hP := locate_place hloc
  subst hP
  have hfile : d'.fileAt (place cwd path) = some (b, m) := by
    rw [h.2 _ hout]
    exact fileAt_eq_some.mpr hget
  exact read_of_file (walk_keepsDirs h.1 hloc) (fileAt_eq_some.mp hfile) hm

end Files

section Along

variable {d d' : Disk}

/-- The directories on the way to `p`, `p` included, are there. -/
def DirsAlong (d : Disk) (p : List String) : Prop :=
  ∀ i ≤ p.length, ∃ m, d.get? (p.take i) = some (.dir m)

theorem DirsAlong.dir {p : List String} (h : DirsAlong d p) : ∃ m, d.get? p = some (.dir m) := by
  simpa using h p.length (Nat.le_refl _)

theorem DirsAlong.keepsDirs {p : List String} (h : DirsAlong d p) (hkeep : KeepsDirs d d') :
    DirsAlong d' p := fun i hi => by
  obtain ⟨m, hm⟩ := h i hi
  exact hkeep _ m hm

theorem dirsAlong_nil : DirsAlong d [] := fun i _ => ⟨dirMode, by simp [get?]⟩

theorem DirsAlong.dropLast {p : List String} (h : DirsAlong d p) : DirsAlong d p.dropLast := by
  intro i hi
  have hlen : p.dropLast.length = p.length - 1 := List.length_dropLast
  rw [List.dropLast_eq_take, List.take_take, Nat.min_eq_left (by omega)]
  exact h i (by omega)

theorem DirsAlong.append_dir {p : List String} {n : String} {m : Nat} (h : DirsAlong d p)
    (hn : d.get? (p ++ [n]) = some (.dir m)) : DirsAlong d (p ++ [n]) := by
  intro i hi
  by_cases hle : i ≤ p.length
  · rw [List.take_append_of_le_length hle]
    exact h i hle
  · have hi' : i = p.length + 1 := by simp at hi; omega
    subst hi'
    exact ⟨m, by rw [List.take_of_length_le (by simp)]; exact hn⟩

/-- A walk that finds every directory on its way ends where the directories are there. -/
theorem walkDirs_dirsAlong {acc q : List String} {cs : List Component} (hacc : DirsAlong d acc)
    (h : d.walkDirs acc cs = .ok q) : DirsAlong d q := by
  induction cs generalizing acc with
  | nil =>
    simp only [walkDirs] at h
    cases h
    exact hacc
  | cons c rest ih =>
    cases c with
    | root => exact ih dirsAlong_nil h
    | current => exact ih hacc h
    | parent => exact ih hacc.dropLast h
    | normal n =>
      simp only [walkDirs] at h
      split at h
      · cases h
      · rcases hget : d.get? (acc ++ [n]) with _ | (_ | m) <;> rw [hget] at h
        · cases h
        · cases h
        · exact ih (hacc.append_dir hget) h

/-- A walk that finds every directory on its way finds the place the path resolves to. -/
theorem walk_of_walkDirs {acc q : List String} {cs : List Component}
    (h : d.walkDirs acc cs = .ok q) : d.walk acc cs = .ok q := by
  induction cs generalizing acc with
  | nil => exact h
  | cons c rest ih =>
    cases c with
    | root => exact ih h
    | current => exact ih h
    | parent => exact ih h
    | normal n =>
      simp only [walkDirs] at h
      simp only [walk]
      split at h
      · cases h
      · rw [if_neg ‹_›]
        rcases hget : d.get? (acc ++ [n]) with _ | (_ | m) <;> rw [hget] at h
        · cases h
        · cases h
        · by_cases hlast : rest.isEmpty
          · rw [if_pos hlast]
            rw [List.isEmpty_iff.mp hlast] at h
            exact h
          · rw [if_neg hlast]
            exact ih h

theorem locate_of_dirOf {cwd q : List String} {dir : String} (h : d.dirOf cwd dir = .ok q) :
    d.locate cwd dir = .ok q :=
  walk_of_walkDirs h

/-- Where the working directory is there, a directory's path leads to a directory. -/
theorem dirOf_dir {cwd q : List String} {dir : String} (hcwd : DirsAlong d cwd)
    (h : d.dirOf cwd dir = .ok q) : ∃ m, d.get? q = some (.dir m) := by
  refine (walkDirs_dirsAlong ?_ h).dir
  unfold dirOf at h
  split
  · exact dirsAlong_nil
  · exact hcwd

/-- The directory `dir` is there, with every directory on the way to it. -/
def HasDir (d : Disk) (cwd : List String) (dir : String) : Prop :=
  ∃ q m, d.dirOf cwd dir = .ok q ∧ d.get? q = some (.dir m)

namespace HasDir

variable {cwd : List String} {dir : String}

theorem of_metadata {m : Nat} (h : d.metadata cwd dir = .ok (.dir m)) : HasDir d cwd dir := by
  obtain ⟨q, hq, hget⟩ := dirOf_of_metadata h
  exact ⟨q, m, hq, hget⟩

theorem keepsDirs (h : HasDir d cwd dir) (hkeep : KeepsDirs d d') : HasDir d' cwd dir := by
  obtain ⟨q, m, hq, hget⟩ := h
  obtain ⟨m', hget'⟩ := hkeep q m hget
  exact ⟨q, m', walkDirs_keepsDirs hkeep hq, hget'⟩

theorem locate (h : HasDir d cwd dir) : d.locate cwd dir = .ok (place cwd dir) := by
  obtain ⟨q, -, hq, -⟩ := h
  have hloc := locate_of_dirOf hq
  rwa [← locate_place hloc]

theorem get_place (h : HasDir d cwd dir) : ∃ m, d.get? (place cwd dir) = some (.dir m) := by
  obtain ⟨q, m, hq, hget⟩ := h
  rw [← locate_place (locate_of_dirOf hq)]
  exact ⟨m, hget⟩

theorem metadata (h : HasDir d cwd dir) : ∃ m, d.metadata cwd dir = .ok (.dir m) := by
  obtain ⟨m, hget⟩ := h.get_place
  exact ⟨m, metadata_of_get? h.locate hget⟩

theorem locate_join (h : HasDir d cwd dir) {n : String} (hn : PlainName n)
    (hshort : n.utf8ByteSize ≤ 255) : d.locate cwd (join dir n) = .ok (place cwd dir ++ [n]) := by
  obtain ⟨q, -, hq, -⟩ := h
  rw [Disk.locate_join d cwd dir hn hshort, hq, ← locate_place (locate_of_dirOf hq)]
  rfl

end HasDir

theorem replace_hasDir {cwd : List String} {dir name : String} {bytes : List UInt8}
    (h : d.replace cwd dir name bytes = .ok d') : HasDir d' cwd dir := by
  have hmeta : ∃ m, d.metadata cwd dir = .ok (.dir m) := by
    simp only [replace, bind, Except.bind, pure, Except.pure] at h
    split at h
    · cases h
    · next e hmeta =>
      cases e with
      | dir m => exact ⟨m, hmeta⟩
      | file => cases h
  obtain ⟨m, hmeta⟩ := hmeta
  obtain ⟨L, -, honly, -⟩ := replace_only h
  exact (HasDir.of_metadata hmeta).keepsDirs honly.1

end Along

end Disk

end RunJournal
