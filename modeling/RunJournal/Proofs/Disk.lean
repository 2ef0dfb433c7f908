import RunJournal.Proofs.Path
/-!
# The disk, operation by operation

What each file-system operation does once a path has been resolved: reading gives the file's bytes,
appending adds at its end, cutting keeps a prefix, and making a directory that is there changes
nothing. Later proofs reach the disk only through these lemmas and the one equation for `put`
(`Disk.get?_put`): a write changes the one path it writes and no other.
-/

namespace RunJournal

namespace Disk

private theorem find?_map_put (l : List (List String × Entry)) (p q : List String) (e : Entry) :
    ((l.map fun (k, f) => if k == p then (k, e) else (k, f)).find? (·.1 == q)).map (·.2)
      = (l.find? (·.1 == q)).map fun x => if q = p then e else x.2 := by
  rw [List.find?_map]
  have hkey : ((fun x : List String × Entry => x.1 == q) ∘
      fun (k, f) => if k == p then (k, e) else (k, f)) = (·.1 == q) := by
    funext ⟨k, f⟩
    by_cases hkp : k = p <;> simp [hkp]
  rw [hkey, Option.map_map]
  cases hfind : l.find? (·.1 == q) with
  | none => rfl
  | some x =>
    have hxq : x.1 = q := by simpa using List.find?_some hfind
    obtain ⟨k, f⟩ := x
    simp only [Option.map_some, Function.comp_apply] at hxq ⊢
    subst hxq
    by_cases hkp : k = p <;> simp [hkp]

private theorem find?_append_put (l : List (List String × Entry)) (p q : List String) (e : Entry)
    (hnone : l.any (·.1 == p) = false) :
    ((l ++ [(p, e)]).find? (·.1 == q)).map (·.2)
      = if q = p then some e else (l.find? (·.1 == q)).map (·.2) := by
  rw [List.find?_append]
  by_cases hqp : q = p
  · subst hqp
    have hmiss : l.find? (·.1 == q) = none := by
      rw [List.find?_eq_none]
      intro x hx hxq
      have : l.any (·.1 == q) = true := List.any_eq_true.mpr ⟨x, hx, hxq⟩
      simp_all
    simp [hmiss]
  · have hmiss : [(p, e)].find? (·.1 == q) = none := by simp [Ne.symm hqp]
    rw [hmiss, Option.or_none, if_neg hqp]

/-- A write changes what its own path holds and nothing else; the root stays a directory. -/
theorem get?_put (d : Disk) (p q : List String) (e : Entry) :
    (d.put p e).get? q = if q = p ∧ q ≠ [] then some e else d.get? q := by
  by_cases hq : q = []
  · subst hq
    simp [get?]
  · have hne : q.isEmpty = false := List.isEmpty_eq_false_iff.mpr hq
    simp only [get?, put, hne, Bool.false_eq_true, if_false, ne_eq, hq, not_false_eq_true,
      and_true]
    split
    · next hany =>
      rw [find?_map_put]
      by_cases hqp : q = p
      · subst hqp
        obtain ⟨x, hx, hxq⟩ := List.any_eq_true.mp hany
        have hsome : (d.entries.find? (·.1 == q)).isSome := List.find?_isSome.mpr ⟨x, hx, hxq⟩
        obtain ⟨y, hy⟩ := Option.isSome_iff_exists.mp hsome
        simp [hy]
      · simp [hqp]
    · next hany =>
      rw [find?_append_put _ _ _ _ (Bool.eq_false_iff.mpr hany)]

theorem get?_put_self {d : Disk} {p : List String} (e : Entry) (hp : p ≠ []) :
    (d.put p e).get? p = some e := by
  simp [get?_put, hp]

theorem get?_put_ne {d : Disk} {p q : List String} (e : Entry) (hqp : q ≠ p) :
    (d.put p e).get? q = d.get? q := by
  simp [get?_put, hqp]

/-! The owner's bits of the modes the store gives its files and directories. -/

@[simp] theorem canRead_fileMode : canRead fileMode := rfl
@[simp] theorem canWrite_fileMode : canWrite fileMode := rfl
@[simp] theorem canRead_privateMode : canRead privateMode := rfl
@[simp] theorem canWrite_privateMode : canWrite privateMode := rfl
@[simp] theorem canRead_dirMode : canRead dirMode := rfl
@[simp] theorem canChange_dirMode : canChange dirMode := rfl

/-! Each operation once its path resolves to `p`. -/

section Resolved

variable {d : Disk} {cwd p : List String} {path : String}

theorem metadata_of_get? {e : Entry} (hloc : d.locate cwd path = .ok p)
    (hget : d.get? p = some e) : d.metadata cwd path = .ok e := by
  simp [metadata, hloc, hget, bind, Except.bind, pure, Except.pure]

theorem metadata_of_get?_none (hloc : d.locate cwd path = .ok p) (hget : d.get? p = none) :
    d.metadata cwd path = .error .notFound := by
  simp [metadata, hloc, hget, bind, Except.bind, throw, throwThe, MonadExceptOf.throw]

theorem read_of_file {b : List UInt8} {m : Nat} (hloc : d.locate cwd path = .ok p)
    (hget : d.get? p = some (.file b m)) (hm : canRead m) : d.read cwd path = .ok b := by
  simp [read, metadata_of_get? hloc hget, hm, bind, Except.bind, pure, Except.pure]

theorem read_of_none (hloc : d.locate cwd path = .ok p) (hget : d.get? p = none) :
    d.read cwd path = .error .notFound := by
  simp [read, metadata_of_get?_none hloc hget, bind, Except.bind]

theorem append_of_file {b : List UInt8} {m : Nat} (bytes : List UInt8)
    (hloc : d.locate cwd path = .ok p) (hget : d.get? p = some (.file b m)) (hm : canWrite m) :
    d.append cwd path bytes = .ok (d.put p (.file (b ++ bytes) m)) := by
  simp [append, openWrite, hloc, hget, hm, bind, Except.bind, pure, Except.pure]

theorem append_of_none {m : Nat} (bytes : List UInt8) (hloc : d.locate cwd path = .ok p)
    (hget : d.get? p = none) (hparent : d.get? p.dropLast = some (.dir m)) (hm : canChange m) :
    d.append cwd path bytes = .ok (d.put p (.file bytes fileMode)) := by
  simp [append, openWrite, hloc, hget, hparent, hm, bind, Except.bind, pure, Except.pure]

/-- A new file is refused in a directory whose owner may not change it, and nothing is made. -/
theorem append_of_none_denied {m : Nat} (bytes : List UInt8) (hloc : d.locate cwd path = .ok p)
    (hget : d.get? p = none) (hparent : d.get? p.dropLast = some (.dir m)) (hm : canChange m = false) :
    d.append cwd path bytes = .error .permissionDenied := by
  simp [append, openWrite, hloc, hget, hparent, hm, bind, Except.bind, throw, throwThe,
    MonadExceptOf.throw]

theorem setLen_of_file {b : List UInt8} {m : Nat} (len : Nat) (hloc : d.locate cwd path = .ok p)
    (hget : d.get? p = some (.file b m)) (hm : canWrite m) :
    d.setLen cwd path len
      = .ok (d.put p (.file (b.take len ++ List.replicate (len - b.length) 0) m)) := by
  simp [setLen, openWrite, hloc, hget, hm, bind, Except.bind, pure, Except.pure]

theorem setLen_of_none (len : Nat) (hloc : d.locate cwd path = .ok p) (hget : d.get? p = none) :
    d.setLen cwd path len = .error .notFound := by
  simp [setLen, openWrite, hloc, hget, bind, Except.bind, throw, throwThe, MonadExceptOf.throw]

theorem isDirAt_of_dir {m : Nat} (hloc : d.locate cwd path = .ok p)
    (hget : d.get? p = some (.dir m)) : d.isDirAt cwd path = true := by
  simp [isDirAt, metadata_of_get? hloc hget, Entry.isDir]

theorem isDirAt_of_none (hloc : d.locate cwd path = .ok p) (hget : d.get? p = none) :
    d.isDirAt cwd path = false := by
  simp [isDirAt, metadata_of_get?_none hloc hget]

theorem mkdir_of_dir {m : Nat} (hloc : d.locate cwd path = .ok p)
    (hget : d.get? p = some (.dir m)) : d.mkdir cwd path = .error .alreadyExists := by
  by_cases hp : p.isEmpty
  · simp [mkdir, hloc, hp, bind, Except.bind, throw, throwThe, MonadExceptOf.throw]
  · simp [mkdir, hloc, hp, hget, bind, Except.bind, throw, throwThe, MonadExceptOf.throw]

theorem createDirAll_of_dir {m : Nat} (hloc : d.locate cwd path = .ok p)
    (hget : d.get? p = some (.dir m)) : d.createDirAll cwd path = .ok d := by
  rw [createDirAll, createDirAll.go]
  by_cases hempty : path.isEmpty
  · rw [if_pos hempty]
  · rw [if_neg hempty, mkdir_of_dir hloc hget]
    simp [isDirAt_of_dir hloc hget]

end Resolved

open RunJournal.Path

theorem keepsDirs_put {d : Disk} {p : List String} (e : Entry)
    (hnodir : ∀ m, d.get? p ≠ some (.dir m)) : KeepsDirs d (d.put p e) := by
  intro q m hq
  have hqp : q ≠ p := by
    rintro rfl
    exact hnodir m hq
  exact ⟨m, by rw [get?_put_ne e hqp, hq]⟩

/-- Where a walk ends on a directory, walking with every last name checked ends there too. -/
theorem walkDirs_of_walk {d : Disk} {acc q : List String} {cs : List Component} {m : Nat}
    (h : d.walk acc cs = .ok q) (hq : d.get? q = some (.dir m)) : d.walkDirs acc cs = .ok q := by
  induction cs generalizing acc with
  | nil => simpa [walk, walkDirs] using h
  | cons c rest ih =>
    cases c with
    | root => exact ih h
    | current => exact ih h
    | parent => exact ih h
    | normal n =>
      simp only [walk] at h
      simp only [walkDirs]
      split at h
      · cases h
      · rw [if_neg ‹_›]
        by_cases hlast : rest.isEmpty
        · rw [if_pos hlast] at h
          cases h
          rw [hq, List.isEmpty_iff.mp hlast]
          rfl
        · rw [if_neg hlast] at h
          rcases hget : d.get? (acc ++ [n]) with _ | (_ | _) <;> rw [hget] at h
          · cases h
          · cases h
          · exact ih h

theorem metadata_eq_ok_iff {d : Disk} {cwd : List String} {path : String} {e : Entry} :
    d.metadata cwd path = .ok e ↔ ∃ p, d.locate cwd path = .ok p ∧ d.get? p = some e := by
  constructor
  · intro h
    simp only [metadata, bind, Except.bind] at h
    split at h
    · cases h
    · next p hloc =>
      refine ⟨p, hloc, ?_⟩
      split at h <;> simp_all [pure, Except.pure, throw, throwThe, MonadExceptOf.throw]
  · rintro ⟨p, hloc, hget⟩
    exact metadata_of_get? hloc hget

theorem exists_eq_true {d : Disk} {cwd : List String} {path : String}
    (h : d.exists_ cwd path = true) : ∃ e, d.metadata cwd path = .ok e := by
  unfold exists_ at h
  cases hmeta : d.metadata cwd path with
  | error err =>
    rw [hmeta] at h
    cases h
  | ok e => exact ⟨e, rfl⟩

theorem metadata_of_read {d : Disk} {cwd : List String} {path : String} {b : List UInt8}
    (h : d.read cwd path = .ok b) : ∃ m, d.metadata cwd path = .ok (.file b m) ∧ canRead m := by
  simp only [read, bind, Except.bind] at h
  split at h
  · cases h
  · next e hmeta =>
    cases e with
    | file b' m =>
      by_cases hm : canRead m
      · simp only [hm, if_true, pure, Except.pure, Except.ok.injEq] at h
        exact ⟨m, h ▸ hmeta, hm⟩
      · simp [hm, throw, throwThe, MonadExceptOf.throw] at h
    | dir m => cases h

theorem exists_of_read {d : Disk} {cwd : List String} {path : String} {b : List UInt8}
    (h : d.read cwd path = .ok b) : d.exists_ cwd path = true := by
  obtain ⟨m, hmeta, -⟩ := metadata_of_read h
  rw [exists_, hmeta]
  rfl

theorem dirOf_of_metadata {d : Disk} {cwd : List String} {dir : String} {m : Nat}
    (h : d.metadata cwd dir = .ok (.dir m)) :
    ∃ q, d.dirOf cwd dir = .ok q ∧ d.get? q = some (.dir m) := by
  obtain ⟨q, hloc, hget⟩ := metadata_eq_ok_iff.mp h
  exact ⟨q, walkDirs_of_walk hloc hget, hget⟩

end Disk

end RunJournal
