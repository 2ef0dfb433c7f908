import RunJournal.Disk.Fs
/-!
# Path algebra

A run's files are named by joining a plain file name to the run's directory. Such a path resolves
exactly where the directory does, one name further down (`Disk.locate_join`). Where a path leads
is a function of its text and the working directory alone (`..` steps back lexically); the file
system only decides whether it gets there, and it keeps getting there as long as the directories
on the way stay directories (`Disk.walk_keepsDirs`).
-/

namespace RunJournal

namespace Path

/-- A file name that joins as one more component: not empty, no separator, not `.` or `..`. -/
def PlainName (n : String) : Prop :=
  n.toList ≠ [] ∧ '/' ∉ n.toList ∧ n ≠ "." ∧ n ≠ ".."

instance (n : String) : Decidable (PlainName n) :=
  inferInstanceAs (Decidable (_ ∧ _ ∧ _ ∧ _))

/-- The component one part of a path gives, if any. -/
def part (s : String) : Option Component :=
  if s.isEmpty || s = "." then none else if s = ".." then some .parent else some (.normal s)

/-- The components of a path from its parts and whether it is absolute. -/
def ofParts (absolute : Bool) (parts : List String) : List Component :=
  let head : List Component := if absolute then [.root]
    else match parts with
      | "." :: _ => [.current]
      | _ => []
  let body := (if absolute then parts else parts.drop (if parts.head? = some "." then 1 else 0))
  head ++ body.filterMap part

/-- The parts of a path between its separators. -/
def parts (p : String) : List String := (p.toList.splitOn '/').map String.ofList

theorem components_eq_ofParts (p : String) : components p = ofParts (isAbsolute p) (parts p) := rfl

theorem parts_ne_nil (p : String) : parts p ≠ [] := by
  simp [parts]

theorem ofParts_append {absolute : Bool} {front : List String} (hfront : front ≠ [])
    (back : List String) :
    ofParts absolute (front ++ back) = ofParts absolute front ++ back.filterMap part := by
  obtain ⟨first, rest, rfl⟩ := List.exists_cons_of_ne_nil hfront
  cases absolute with
  | true => simp only [ofParts, if_true, List.filterMap_append, List.append_assoc]
  | false =>
    by_cases hdot : first = "."
    · subst hdot
      simp only [ofParts, Bool.false_eq_true, if_false, List.cons_append, List.head?_cons,
        if_true, List.drop_succ_cons, List.drop_zero, List.filterMap_append, List.append_assoc]
    · have hhead : (some first = some ".") = False := by simpa using hdot
      have hcons : (first :: (rest ++ back)).filterMap part
          = (first :: rest).filterMap part ++ back.filterMap part := by
        rw [← List.cons_append, List.filterMap_append]
      simp only [ofParts, Bool.false_eq_true, if_false, List.cons_append, List.head?_cons, hhead,
        List.drop_zero, hcons]
      split <;> simp_all

theorem ofParts_append_single {absolute : Bool} {front : List String} (hfront : front ≠ [])
    (last : String) :
    ofParts absolute (front ++ [last]) = ofParts absolute front ++ (part last).toList := by
  rw [ofParts_append hfront]
  cases h : part last <;> simp [h]

theorem part_empty : part "" = none := by
  simp [part]

theorem part_plain {n : String} (hn : PlainName n) : part n = some (.normal n) := by
  obtain ⟨hne, -, hdot, hdotdot⟩ := hn
  have hempty : n.isEmpty = false := by
    rw [String.isEmpty_eq_false_iff]
    rintro rfl
    exact hne String.toList_empty
  unfold part
  rw [if_neg (by simp [hempty, hdot]), if_neg hdotdot]

theorem parts_plain {n : String} (hn : PlainName n) : parts n = [n] := by
  rw [parts, List.splitOn_eq_singleton hn.2.1]
  simp [String.ofList_toList]

theorem parts_append_sep (a b : String) : parts (a ++ "/" ++ b) = parts a ++ parts b := by
  have hsep : ("/" : String).toList = ['/'] := by decide
  simp only [parts, String.toList_append, hsep, List.append_assoc, List.singleton_append,
    List.splitOn_append_cons_self, List.map_append]

theorem isAbsolute_plain {n : String} (hn : PlainName n) : isAbsolute n = false := by
  obtain ⟨hne, hslash, -, -⟩ := hn
  obtain ⟨c, cs, hcs⟩ := List.exists_cons_of_ne_nil hne
  have hc : c ≠ '/' := fun h => hslash (by rw [hcs, h]; exact List.mem_cons_self)
  simp [isAbsolute, hcs, hc]

theorem isAbsolute_append {base : String} (hbase : base.toList ≠ []) (rest : String) :
    isAbsolute (base ++ rest) = isAbsolute base := by
  obtain ⟨c, cs, hcs⟩ := List.exists_cons_of_ne_nil hbase
  simp [isAbsolute, hcs]

theorem parts_append_sep_chars (front back : List Char) :
    ((front ++ '/' :: back).splitOn '/').map String.ofList
      = (front.splitOn '/').map String.ofList ++ (back.splitOn '/').map String.ofList := by
  rw [List.splitOn_append_cons_self, List.map_append]

/-- Joining a plain name to a path keeps whether the path is absolute and adds the name as its
last component. -/
theorem components_join {n : String} (hn : PlainName n) (base : String) :
    isAbsolute (join base n) = isAbsolute base ∧
      components (join base n) = components base ++ [.normal n] := by
  have hjoin : join base n = if base.isEmpty || base.toList.getLast? == some '/' then base ++ n
      else base ++ "/" ++ n := by
    rw [join, if_neg (by simp [isAbsolute_plain hn])]
  by_cases hempty : base.isEmpty
  · have hbase : base = "" := String.isEmpty_iff.mp hempty
    subst hbase
    rw [hjoin, if_pos (by simp), String.empty_append, components_eq_ofParts,
      components_eq_ofParts, parts_plain hn, isAbsolute_plain hn]
    refine ⟨by decide, ?_⟩
    simp [ofParts, part_plain hn, part_empty, hn.2.2.1, isAbsolute, parts]
  · have hbase : base.toList ≠ [] := by
      intro h
      exact hempty (String.isEmpty_iff.mpr (String.toList_inj.mp (h.trans String.toList_empty.symm)))
    by_cases hslash : base.toList.getLast? = some '/'
    · obtain ⟨front, hfront⟩ := List.getLast?_eq_some_iff.mp hslash
      rw [hjoin, if_pos (by simp [hslash])]
      refine ⟨isAbsolute_append hbase n, ?_⟩
      have hjoined : parts (base ++ n) = (front.splitOn '/').map String.ofList ++ [n] := by
        rw [parts, String.toList_append, hfront, List.append_assoc, List.singleton_append,
          parts_append_sep_chars, ← parts, parts_plain hn]
      have hown : parts base = (front.splitOn '/').map String.ofList ++ [""] := by
        rw [parts, hfront, parts_append_sep_chars]
        rfl
      rw [components_eq_ofParts, components_eq_ofParts, isAbsolute_append hbase n, hjoined, hown,
        ofParts_append_single (by simp), ofParts_append_single (by simp), part_plain hn, part_empty]
      simp
    · rw [hjoin, if_neg (by simp [hempty, hslash])]
      refine ⟨by rw [String.append_assoc, isAbsolute_append hbase], ?_⟩
      rw [components_eq_ofParts, components_eq_ofParts, parts_append_sep, parts_plain hn,
        String.append_assoc, isAbsolute_append hbase, ofParts_append_single (parts_ne_nil base),
        part_plain hn]
      simp

end Path

namespace Disk

open RunJournal.Path

/-- Walks components like `walk`, but also requires the place a last name reaches to be a
directory: what must hold for anything to be found below the path. -/
def walkDirs (d : Disk) : List String → List Component → Except IoError (List String)
  | acc, [] => .ok acc
  | acc, c :: rest =>
    match c with
    | .root => walkDirs d [] rest
    | .current => walkDirs d acc rest
    | .parent => walkDirs d acc.dropLast rest
    | .normal n =>
      if n.utf8ByteSize > 255 then .error .nameTooLong
      else match d.get? (acc ++ [n]) with
        | some (.dir _) => walkDirs d (acc ++ [n]) rest
        | some (.file ..) => .error .notADirectory
        | none => .error .notFound

theorem walk_append_normal (d : Disk) (acc : List String) (cs : List Component) {n : String}
    (hn : n.utf8ByteSize ≤ 255) :
    d.walk acc (cs ++ [.normal n]) = (d.walkDirs acc cs).map (· ++ [n]) := by
  induction cs generalizing acc with
  | nil =>
    have hshort : ¬ n.utf8ByteSize > 255 := by omega
    simp [walk, walkDirs, hshort, Except.map]
  | cons c rest ih =>
    cases c with
    | root => simp only [List.cons_append, walk, walkDirs, ih]
    | current => simp only [List.cons_append, walk, walkDirs, ih]
    | parent => simp only [List.cons_append, walk, walkDirs, ih]
    | normal m =>
      have hmore : (rest ++ [Component.normal n]).isEmpty = false := by simp
      simp only [List.cons_append, walk, walkDirs, hmore, Bool.false_eq_true, if_false]
      split
      · rfl
      · rcases hget : d.get? (acc ++ [m]) with _ | (_ | _) <;> simp [ih, Except.map]

/-- Where a directory's path leads when every directory on the way, its last name included, is
there: the place the files joined to it sit in. -/
def dirOf (d : Disk) (cwd : List String) (dir : String) : Except IoError (List String) :=
  d.walkDirs (if isAbsolute dir then [] else cwd) (components dir)

/-- A file joined to a directory is found one name below where the directory leads. -/
theorem locate_join (d : Disk) (cwd : List String) (dir : String) {n : String} (hn : PlainName n)
    (hshort : n.utf8ByteSize ≤ 255) :
    d.locate cwd (join dir n) = (d.dirOf cwd dir).map (· ++ [n]) := by
  obtain ⟨habs, hcomps⟩ := components_join hn dir
  rw [locate, habs, hcomps, walk_append_normal d _ _ hshort, dirOf]


/-- Where components lead when every step is allowed: `..` drops the last name. -/
def lexWalk : List String → List Component → List String
  | acc, [] => acc
  | _, .root :: rest => lexWalk [] rest
  | acc, .current :: rest => lexWalk acc rest
  | acc, .parent :: rest => lexWalk acc.dropLast rest
  | acc, .normal n :: rest => lexWalk (acc ++ [n]) rest

theorem walkDirs_eq_lexWalk {d : Disk} {acc r : List String} {cs : List Component}
    (h : d.walkDirs acc cs = .ok r) : r = lexWalk acc cs := by
  induction cs generalizing acc with
  | nil => simpa [walkDirs, lexWalk] using h.symm
  | cons c rest ih =>
    cases c with
    | root => exact ih h
    | current => exact ih h
    | parent => exact ih h
    | normal m =>
      simp only [walkDirs] at h
      split at h
      · cases h
      · rcases hget : d.get? (acc ++ [m]) with _ | (_ | _) <;> rw [hget] at h
        · cases h
        · cases h
        · exact ih h

theorem walk_eq_lexWalk {d : Disk} {acc r : List String} {cs : List Component}
    (h : d.walk acc cs = .ok r) : r = lexWalk acc cs := by
  induction cs generalizing acc with
  | nil => simpa [walk, lexWalk] using h.symm
  | cons c rest ih =>
    cases c with
    | root => exact ih h
    | current => exact ih h
    | parent => exact ih h
    | normal m =>
      simp only [walk] at h
      split at h
      · cases h
      · by_cases hlast : rest.isEmpty
        · rw [if_pos hlast] at h
          cases h
          simp [List.isEmpty_iff.mp hlast, lexWalk]
        · rw [if_neg hlast] at h
          rcases hget : d.get? (acc ++ [m]) with _ | (_ | _) <;> rw [hget] at h
          · cases h
          · cases h
          · exact ih h

/-- Where `path` leads from `cwd`, worked out from its text alone. -/
def place (cwd : List String) (path : String) : List String :=
  lexWalk (if isAbsolute path then [] else cwd) (components path)

theorem locate_place {d : Disk} {cwd r : List String} {path : String}
    (h : d.locate cwd path = .ok r) : r = place cwd path :=
  walk_eq_lexWalk h

/-- A walk over two lists of components goes on from where the first leaves it. -/
theorem lexWalk_append (acc : List String) (cs ds : List Component) :
    lexWalk acc (cs ++ ds) = lexWalk (lexWalk acc cs) ds := by
  induction cs generalizing acc with
  | nil => rfl
  | cons c rest ih => cases c <;> exact ih _

theorem lexWalk_append_normal (acc : List String) (cs : List Component) (n : String) :
    lexWalk acc (cs ++ [.normal n]) = lexWalk acc cs ++ [n] := by
  rw [lexWalk_append]
  rfl

theorem place_join (cwd : List String) (dir : String) {n : String} (hn : PlainName n) :
    place cwd (join dir n) = place cwd dir ++ [n] := by
  obtain ⟨habs, hcomps⟩ := components_join hn dir
  rw [place, place, habs, hcomps, lexWalk_append_normal]

/-- Files under different names are at different places, whatever their directories. -/
theorem place_join_ne (cwd : List String) (dir dir' : String) {n n' : String} (hn : PlainName n)
    (hn' : PlainName n') (hne : n ≠ n') : place cwd (join dir n) ≠ place cwd (join dir' n') := by
  rw [place_join cwd dir hn, place_join cwd dir' hn']
  intro h
  have hlast := congrArg List.getLast? h
  simp only [List.getLast?_append, List.getLast?_singleton, Option.some_or, Option.some.injEq]
    at hlast
  exact hne hlast

/-- Two files of one directory under different names are found at different places. -/
theorem locate_join_ne {d : Disk} {cwd P P' : List String} {dir n n' : String} (hn : PlainName n)
    (hn' : PlainName n') (hne : n ≠ n') (hP : d.locate cwd (join dir n) = .ok P)
    (hP' : d.locate cwd (join dir n') = .ok P') : P ≠ P' := by
  rw [locate_place hP, locate_place hP']
  exact place_join_ne cwd dir dir hn hn' hne

/-- Every directory of `d` is a directory of `d'`, whatever its bits. -/
def KeepsDirs (d d' : Disk) : Prop :=
  ∀ p m, d.get? p = some (.dir m) → ∃ m', d'.get? p = some (.dir m')

theorem KeepsDirs.refl (d : Disk) : KeepsDirs d d := fun _ m h => ⟨m, h⟩

theorem KeepsDirs.trans {d₁ d₂ d₃ : Disk} (h₁₂ : KeepsDirs d₁ d₂) (h₂₃ : KeepsDirs d₂ d₃) :
    KeepsDirs d₁ d₃ := by
  intro p m h
  obtain ⟨m', h'⟩ := h₁₂ p m h
  exact h₂₃ p m' h'

theorem walkDirs_keepsDirs {d d' : Disk} (hkeep : KeepsDirs d d') {acc r : List String}
    {cs : List Component} (h : d.walkDirs acc cs = .ok r) : d'.walkDirs acc cs = .ok r := by
  induction cs generalizing acc with
  | nil => simpa [walkDirs] using h
  | cons c rest ih =>
    cases c with
    | root => exact ih h
    | current => exact ih h
    | parent => exact ih h
    | normal m =>
      simp only [walkDirs] at h ⊢
      split at h
      · cases h
      · rw [if_neg ‹_›]
        rcases hget : d.get? (acc ++ [m]) with _ | (_ | mode) <;> rw [hget] at h
        · cases h
        · cases h
        · obtain ⟨mode', hget'⟩ := hkeep _ mode hget
          rw [hget']
          exact ih h

theorem walk_keepsDirs {d d' : Disk} (hkeep : KeepsDirs d d') {acc r : List String}
    {cs : List Component} (h : d.walk acc cs = .ok r) : d'.walk acc cs = .ok r := by
  induction cs generalizing acc with
  | nil => simpa [walk] using h
  | cons c rest ih =>
    cases c with
    | root => exact ih h
    | current => exact ih h
    | parent => exact ih h
    | normal m =>
      simp only [walk] at h ⊢
      split at h
      · cases h
      · rw [if_neg ‹_›]
        by_cases hlast : rest.isEmpty
        · rw [if_pos hlast] at h ⊢
          exact h
        · rw [if_neg hlast] at h ⊢
          rcases hget : d.get? (acc ++ [m]) with _ | (_ | mode) <;> rw [hget] at h
          · cases h
          · cases h
          · obtain ⟨mode', hget'⟩ := hkeep _ mode hget
            rw [hget']
            exact ih h

end Disk

end RunJournal
