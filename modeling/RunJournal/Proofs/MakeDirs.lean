import RunJournal.Proofs.Disk
/-!
# Making a run's directories

`createDirAll` makes a directory with `mkdir` and, when that fails because the parent is missing,
first makes the parent, which it finds from the path's text (`Path.parent`): the path's components
printed again without the last one. For a run directory `root/project/run` below a root that is a
directory, this makes at most the project's and the run's directories and changes nothing else,
or is refused where the owner may not change the directory the first missing one goes in
(`Disk.createDirAll_run`).

The recursion reaches the project directory because printing components and reading them back is
the identity on everything reading gives (`Path.components_ofComponents`): after its head, a path
reads as `..` and plain names, which print without a separator and read back as themselves.
-/

namespace RunJournal

namespace Path

/-- The text `ofComponents` prints for one component. -/
def Component.text : Component → String
  | .root => ""
  | .current => "."
  | .parent => ".."
  | .normal n => n

/-- What reading a path gives after its head: `..` or a plain name. -/
def Component.Plain : Component → Prop
  | .parent => True
  | .normal n => PlainName n
  | _ => False

theorem ofComponents_root (rest : List Component) :
    ofComponents (.root :: rest) = "/" ++ String.intercalate "/" (rest.map Component.text) :=
  rfl

theorem ofComponents_of_head {cs : List Component} (h : cs.head? ≠ some .root) :
    ofComponents cs = String.intercalate "/" (cs.map Component.text) := by
  unfold ofComponents
  split
  · simp at h
  · rfl

/-! ## Reading printed components back -/

/-- A piece of a split holds only elements of the list, and never the separator. -/
theorem mem_of_mem_splitOn {xs l : List Char} {x : Char} (h : l ∈ xs.splitOn x) :
    ∀ y ∈ l, y ∈ xs ∧ y ≠ x := by
  induction xs generalizing l with
  | nil =>
    rw [List.splitOn_nil, List.mem_singleton] at h
    subst h
    simp
  | cons z zs ih =>
    have hrest : ∀ {l}, l ∈ zs.splitOn x → ∀ y ∈ l, y ∈ z :: zs ∧ y ≠ x := fun hl y hy =>
      ⟨List.mem_cons_of_mem _ (ih hl y hy).1, (ih hl y hy).2⟩
    rw [List.splitOn_cons_eq_if_modifyHead] at h
    split at h
    · rcases List.mem_cons.mp h with rfl | h
      · simp
      · exact hrest h
    · next hz =>
      obtain ⟨first, rest, hsplit⟩ := List.exists_cons_of_ne_nil (List.splitOn_ne_nil x zs)
      rw [hsplit, List.modifyHead_cons] at h
      rcases List.mem_cons.mp h with rfl | h
      · intro y hy
        rcases List.mem_cons.mp hy with rfl | hy
        · exact ⟨List.mem_cons_self, by simpa using hz⟩
        · exact hrest (by rw [hsplit]; exact List.mem_cons_self) y hy
      · exact hrest (by rw [hsplit]; exact List.mem_cons_of_mem _ h)

theorem not_mem_of_mem_splitOn {xs l : List Char} {x : Char} (h : l ∈ xs.splitOn x) : x ∉ l :=
  fun hx => (mem_of_mem_splitOn h x hx).2 rfl

theorem slash_not_mem_of_mem_parts {p s : String} (hs : s ∈ parts p) : '/' ∉ s.toList := by
  obtain ⟨l, hl, rfl⟩ := List.mem_map.mp hs
  rw [String.toList_ofList]
  exact not_mem_of_mem_splitOn hl

/-- Pieces without a separator, joined by separators, split back into themselves. -/
theorem parts_intercalate {ts : List String} (hts : ts ≠ []) (hslash : ∀ t ∈ ts, '/' ∉ t.toList) :
    parts (String.intercalate "/" ts) = ts := by
  have hsep : ("/" : String).toList = ['/'] := by decide
  rw [parts, String.toList_intercalate, hsep, List.splitOn_intercalate]
  · simp [List.map_map, Function.comp_def]
  · intro l hl
    obtain ⟨t, ht, rfl⟩ := List.mem_map.mp hl
    exact hslash t ht
  · simpa using hts

theorem isAbsolute_intercalate {t : String} (ht : t.toList ≠ []) (ts : List String) :
    isAbsolute (String.intercalate "/" (t :: ts)) = isAbsolute t := by
  cases ts with
  | nil => rw [String.intercalate_singleton]
  | cons u us =>
    rw [String.intercalate_cons_of_ne_nil (List.cons_ne_nil u us), String.append_assoc,
      isAbsolute_append ht]

theorem Component.text_ne_nil {c : Component} (hc : c.Plain) : c.text.toList ≠ [] := by
  cases c with
  | parent => decide
  | normal n => exact hc.1
  | root => exact hc.elim
  | current => exact hc.elim

theorem Component.slash_not_mem_text {c : Component} (hc : c.Plain) : '/' ∉ c.text.toList := by
  cases c with
  | parent => decide
  | normal n => exact hc.2.1
  | root => exact hc.elim
  | current => exact hc.elim

theorem Component.text_ne_dot {c : Component} (hc : c.Plain) : c.text ≠ "." := by
  cases c with
  | parent => decide
  | normal n => exact hc.2.2.1
  | root => exact hc.elim
  | current => exact hc.elim

theorem Component.isAbsolute_text {c : Component} (hc : c.Plain) : isAbsolute c.text = false := by
  cases c with
  | parent => decide
  | normal n => exact isAbsolute_plain hc
  | root => exact hc.elim
  | current => exact hc.elim

theorem part_text {c : Component} (hc : c.Plain) : part c.text = some c := by
  cases c with
  | parent => decide
  | normal n => exact part_plain hc
  | root => exact hc.elim
  | current => exact hc.elim

theorem filterMap_part_text {cs : List Component} (hcs : ∀ c ∈ cs, c.Plain) :
    (cs.map Component.text).filterMap part = cs := by
  induction cs with
  | nil => rfl
  | cons c cs ih =>
    rw [List.map_cons, List.filterMap_cons, part_text (hcs c List.mem_cons_self),
      ih fun c' hc' => hcs c' (List.mem_cons_of_mem _ hc')]

theorem filterMap_part_parts_intercalate {cs : List Component} (hcs : ∀ c ∈ cs, c.Plain) :
    (parts (String.intercalate "/" (cs.map Component.text))).filterMap part = cs := by
  cases cs with
  | nil => decide
  | cons c cs =>
    rw [parts_intercalate (by simp) (fun t ht => by
      obtain ⟨c', hc', rfl⟩ := List.mem_map.mp ht
      exact Component.slash_not_mem_text (hcs c' hc')), filterMap_part_text hcs]

theorem plain_of_part {s : String} {c : Component} (hslash : '/' ∉ s.toList)
    (h : part s = some c) : c.Plain := by
  unfold part at h
  split at h
  · cases h
  · next hkeep =>
    split at h
    · cases h
      trivial
    · next hdotdot =>
      cases h
      simp only [Bool.or_eq_true, String.isEmpty_iff, decide_eq_true_eq, not_or] at hkeep
      refine ⟨fun hnil => hkeep.1 ?_, hslash, hkeep.2, hdotdot⟩
      exact String.toList_inj.mp (hnil.trans String.toList_empty.symm)

theorem plain_of_mem_filterMap {ps : List String} (hps : ∀ s ∈ ps, '/' ∉ s.toList) :
    ∀ c ∈ ps.filterMap part, c.Plain := by
  intro c hc
  obtain ⟨s, hs, hpart⟩ := List.mem_filterMap.mp hc
  exact plain_of_part (hps s hs) hpart

/-- A relative path that starts with `.` reads as the current directory, then what its other
parts name. -/
theorem ofParts_dot (rest : List String) :
    ofParts false ("." :: rest) = .current :: rest.filterMap part := by
  simp only [ofParts, Bool.false_eq_true, if_false, List.head?_cons, if_true, List.drop_succ_cons,
    List.drop_zero, List.singleton_append]

theorem ofParts_of_ne_dot {first : String} (rest : List String) (hdot : first ≠ ".") :
    ofParts false (first :: rest) = (first :: rest).filterMap part := by
  simp only [ofParts, Bool.false_eq_true, if_false, List.head?_cons, Option.some.injEq, hdot,
    List.drop_zero]
  split <;> simp_all

/-- Steps up and plain names print as a relative path and read back as themselves. -/
theorem components_ofComponents_plain {cs : List Component} (hcs : ∀ c ∈ cs, c.Plain) :
    components (ofComponents cs) = cs ∧ isAbsolute (ofComponents cs) = false := by
  cases cs with
  | nil => exact ⟨rfl, rfl⟩
  | cons c cs =>
    have hc := hcs c List.mem_cons_self
    rw [ofComponents_of_head (by simp; exact fun h => by subst h; exact hc), List.map_cons]
    have habs : isAbsolute (String.intercalate "/" (c.text :: cs.map Component.text)) = false := by
      rw [isAbsolute_intercalate (Component.text_ne_nil hc), Component.isAbsolute_text hc]
    refine ⟨?_, habs⟩
    rw [components_eq_ofParts, habs, ← List.map_cons, parts_intercalate (by simp)
      (fun t ht => by
        obtain ⟨c', hc', rfl⟩ := List.mem_map.mp ht
        exact Component.slash_not_mem_text (hcs c' hc'))]
    rw [List.map_cons, ofParts_of_ne_dot _ (Component.text_ne_dot hc), ← List.map_cons,
      filterMap_part_text hcs]

/-- Reading the printed components of a path gives its components back, and whether it is
absolute. -/
theorem components_ofComponents (base : String) :
    components (ofComponents (components base)) = components base ∧
      isAbsolute (ofComponents (components base)) = isAbsolute base := by
  have hplain := plain_of_mem_filterMap fun s (hs : s ∈ parts base) =>
    slash_not_mem_of_mem_parts hs
  rw [components_eq_ofParts base]
  cases habs : isAbsolute base with
  | true =>
    simp only [ofParts, if_true, List.singleton_append, ofComponents_root]
    generalize hbody : (parts base).filterMap part = body at hplain
    have hprint : "/" ++ String.intercalate "/" (body.map Component.text)
        = "" ++ "/" ++ String.intercalate "/" (body.map Component.text) := by
      rw [String.empty_append]
    have hsep : isAbsolute ("/" ++ String.intercalate "/" (body.map Component.text)) = true := by
      rw [isAbsolute_append (by decide)]
      decide
    refine ⟨?_, hsep⟩
    have hempty : (parts "").filterMap part = [] := by decide
    rw [components_eq_ofParts, hsep, hprint, parts_append_sep]
    simp only [ofParts, if_true, List.singleton_append, List.filterMap_append,
      filterMap_part_parts_intercalate hplain, hempty, List.nil_append]
  | false =>
    obtain ⟨first, rest, hparts⟩ := List.exists_cons_of_ne_nil (parts_ne_nil base)
    have hrest : ∀ c ∈ rest.filterMap part, c.Plain := plain_of_mem_filterMap fun s hs =>
      slash_not_mem_of_mem_parts (hparts ▸ List.mem_cons_of_mem first hs)
    by_cases hdot : first = "."
    · subst hdot
      rw [hparts, ofParts_dot, ofComponents_of_head (by simp), List.map_cons]
      have htexts : parts (String.intercalate "/" (Component.current.text ::
          (rest.filterMap part).map Component.text)) = "." :: (rest.filterMap part).map
            Component.text := by
        refine parts_intercalate (List.cons_ne_nil _ _) fun t ht => ?_
        rcases List.mem_cons.mp ht with rfl | ht
        · decide
        · obtain ⟨c, hc, rfl⟩ := List.mem_map.mp ht
          exact Component.slash_not_mem_text (hrest c hc)
      have habs' : isAbsolute (String.intercalate "/" (Component.current.text ::
          (rest.filterMap part).map Component.text)) = false := by
        rw [isAbsolute_intercalate (by decide)]
        decide
      refine ⟨?_, habs'⟩
      rw [components_eq_ofParts, habs', htexts, ofParts_dot, filterMap_part_text hrest]
    · rw [hparts, ofParts_of_ne_dot rest hdot, ← hparts]
      exact components_ofComponents_plain hplain

/-- The parent of a name joined to a path is the path's components printed again. -/
theorem parent_join {n : String} (hn : PlainName n) (base : String) :
    parent (join base n) = some (ofComponents (components base)) := by
  rw [parent, (components_join hn base).2, List.reverse_append, List.reverse_singleton,
    List.singleton_append]
  split
  · next h => cases h
  · next h => cases h
  · next c rest h =>
    obtain ⟨-, rfl⟩ := List.cons.inj h
    rw [List.reverse_reverse]

theorem isEmpty_eq_false_of_components {x : String} (h : components x ≠ []) : x.isEmpty = false := by
  cases hx : x.isEmpty
  · rfl
  · rw [String.isEmpty_iff.mp hx] at h
    exact absurd (by decide) h

end Path

namespace Disk

open RunJournal.Path

variable {d : Disk} {cwd : List String}

theorem walkDirs_append (d : Disk) (acc : List String) (cs cs' : List Component) :
    d.walkDirs acc (cs ++ cs') = (d.walkDirs acc cs).bind fun q => d.walkDirs q cs' := by
  induction cs generalizing acc with
  | nil => rfl
  | cons c rest ih =>
    cases c with
    | root => exact ih []
    | current => exact ih acc
    | parent => exact ih acc.dropLast
    | normal m =>
      simp only [List.cons_append, walkDirs]
      split
      · rfl
      · split
        · exact ih _
        · rfl
        · rfl

theorem walkDirs_normal_dir {q : List String} {n : String} {m : Nat} (hshort : n.utf8ByteSize ≤ 255)
    (hget : d.get? (q ++ [n]) = some (.dir m)) : d.walkDirs q [.normal n] = .ok (q ++ [n]) := by
  have hlong : ¬ n.utf8ByteSize > 255 := by omega
  simp [walkDirs, hlong, hget]

theorem walkDirs_normal_none {q : List String} {n : String} (hshort : n.utf8ByteSize ≤ 255)
    (hget : d.get? (q ++ [n]) = none) : d.walkDirs q [.normal n] = .error .notFound := by
  have hlong : ¬ n.utf8ByteSize > 255 := by omega
  simp [walkDirs, hlong, hget]

theorem dirOf_join {n : String} (hn : PlainName n) (dir : String) :
    d.dirOf cwd (join dir n) = (d.dirOf cwd dir).bind fun q => d.walkDirs q [.normal n] := by
  obtain ⟨habs, hcomps⟩ := components_join hn dir
  rw [dirOf, dirOf, habs, hcomps, walkDirs_append]

/-- Where a path leads depends on its components and whether it is absolute, not on its text. -/
theorem locate_eq_of_components {x y : String} (hc : components x = components y)
    (ha : isAbsolute x = isAbsolute y) : d.locate cwd x = d.locate cwd y := by
  rw [locate, locate, hc, ha]

theorem mkdir_eq_of_components {x y : String} (hc : components x = components y)
    (ha : isAbsolute x = isAbsolute y) : d.mkdir cwd x = d.mkdir cwd y := by
  unfold mkdir
  rw [locate_eq_of_components hc ha]

theorem mkdir_of_none {p : List String} {path : String} {m : Nat} (hloc : d.locate cwd path = .ok p)
    (hp : p ≠ []) (hnone : d.get? p = none) (hparent : d.get? p.dropLast = some (.dir m))
    (hm : canChange m) : d.mkdir cwd path = .ok (d.put p (.dir dirMode)) := by
  have hempty : p.isEmpty = false := List.isEmpty_eq_false_iff.mpr hp
  simp [mkdir, hloc, hempty, hnone, hparent, hm, bind, Except.bind, pure, Except.pure]

theorem mkdir_of_none_denied {p : List String} {path : String} {m : Nat}
    (hloc : d.locate cwd path = .ok p) (hp : p ≠ []) (hnone : d.get? p = none)
    (hparent : d.get? p.dropLast = some (.dir m)) (hm : canChange m = false) :
    d.mkdir cwd path = .error .permissionDenied := by
  have hempty : p.isEmpty = false := List.isEmpty_eq_false_iff.mpr hp
  simp [mkdir, hloc, hempty, hnone, hparent, hm, bind, Except.bind, throw, throwThe,
    MonadExceptOf.throw]

theorem mkdir_of_locate_error {path : String} {e : IoError} (h : d.locate cwd path = .error e) :
    d.mkdir cwd path = .error e := by
  simp [mkdir, h, bind, Except.bind]

theorem createDirAll_of_mkdir {path : String} {d' : Disk} (hpath : path.isEmpty = false)
    (h : d.mkdir cwd path = .ok d') : d.createDirAll cwd path = .ok d' := by
  rw [createDirAll, createDirAll.go, if_neg (by simp [hpath]), h]

theorem createDirAll_of_denied {path : String} (hpath : path.isEmpty = false)
    (h : d.mkdir cwd path = .error .permissionDenied) (hdir : d.isDirAt cwd path = false) :
    d.createDirAll cwd path = .error .permissionDenied := by
  rw [createDirAll, createDirAll.go, if_neg (by simp [hpath]), h]
  simp only [hdir, Bool.false_eq_true, if_false]

/-- A directory whose parent is missing is made after the parent, when the parent's own parent is
there. -/
theorem createDirAll_join_of_parent {n : String} (hn : PlainName n) {dir : String} {d' d'' : Disk}
    (hdir : components dir ≠ []) (hmk : d.mkdir cwd (join dir n) = .error .notFound)
    (hup : d.mkdir cwd dir = .ok d') (hmk' : d'.mkdir cwd (join dir n) = .ok d'') :
    d.createDirAll cwd (join dir n) = .ok d'' := by
  obtain ⟨habs, hcomps⟩ := components_join hn dir
  obtain ⟨hcomps', habs'⟩ := components_ofComponents dir
  have hjoin : (join dir n).isEmpty = false :=
    isEmpty_eq_false_of_components (by rw [hcomps]; exact List.append_ne_nil_of_right_ne_nil _ (by simp))
  have hup' : d.mkdir cwd (ofComponents (components dir)) = .ok d' := by
    rw [mkdir_eq_of_components hcomps' habs', hup]
  have hlen : (components (join dir n)).length + 1 = ((components dir).length + 1) + 1 := by
    rw [hcomps, List.length_append, List.length_singleton]
  rw [createDirAll, hlen, createDirAll.go, if_neg (by simp [hjoin]), hmk]
  simp only [parent_join hn dir]
  have hparent : (ofComponents (components dir)).isEmpty = false :=
    isEmpty_eq_false_of_components (by rw [hcomps']; exact hdir)
  rw [createDirAll.go, if_neg (by simp [hparent]), hup']
  simp only [bind, Except.bind, hmk']

/-- Where the missing parent is refused, so is the directory, and nothing is made. -/
theorem createDirAll_join_of_denied {n : String} (hn : PlainName n) {dir : String}
    (hdir : components dir ≠ []) (hmk : d.mkdir cwd (join dir n) = .error .notFound)
    (hup : d.mkdir cwd dir = .error .permissionDenied) (hupdir : d.isDirAt cwd dir = false) :
    d.createDirAll cwd (join dir n) = .error .permissionDenied := by
  obtain ⟨habs, hcomps⟩ := components_join hn dir
  obtain ⟨hcomps', habs'⟩ := components_ofComponents dir
  have hjoin : (join dir n).isEmpty = false :=
    isEmpty_eq_false_of_components (by rw [hcomps]; exact List.append_ne_nil_of_right_ne_nil _ (by simp))
  have hup' : d.mkdir cwd (ofComponents (components dir)) = .error .permissionDenied := by
    rw [mkdir_eq_of_components hcomps' habs', hup]
  have hupdir' : d.isDirAt cwd (ofComponents (components dir)) = false := by
    rw [← hupdir]
    unfold isDirAt metadata
    rw [locate_eq_of_components hcomps' habs']
  have hlen : (components (join dir n)).length + 1 = ((components dir).length + 1) + 1 := by
    rw [hcomps, List.length_append, List.length_singleton]
  rw [createDirAll, hlen, createDirAll.go, if_neg (by simp [hjoin]), hmk]
  simp only [parent_join hn dir]
  have hparent : (ofComponents (components dir)).isEmpty = false :=
    isEmpty_eq_false_of_components (by rw [hcomps']; exact hdir)
  rw [createDirAll.go, if_neg (by simp [hparent]), hup']
  simp only [hupdir', Bool.false_eq_true, if_false, bind, Except.bind]

/-! ## A run's directories -/

section Run

variable {root p r : String} {R : List String}

/-- Below a root that leads to `R`, the run directory `root/p/r` is looked for at `R ++ [p, r]`
once the project's directory is there. -/
theorem locate_run (hroot : d.dirOf cwd root = .ok R) (hp : PlainName p)
    (hps : p.utf8ByteSize ≤ 255) (hr : PlainName r) (hrs : r.utf8ByteSize ≤ 255) {m : Nat}
    (hproject : d.get? (R ++ [p]) = some (.dir m)) :
    d.locate cwd (join (join root p) r) = .ok (R ++ [p, r]) := by
  rw [locate_join d cwd _ hr hrs, dirOf_join hp, hroot]
  simp [Except.bind, walkDirs_normal_dir hps hproject, Except.map]

theorem locate_run_of_none (hroot : d.dirOf cwd root = .ok R) (hp : PlainName p)
    (hps : p.utf8ByteSize ≤ 255) (hr : PlainName r) (hrs : r.utf8ByteSize ≤ 255)
    (hproject : d.get? (R ++ [p]) = none) :
    d.locate cwd (join (join root p) r) = .error .notFound := by
  rw [locate_join d cwd _ hr hrs, dirOf_join hp, hroot]
  simp [Except.bind, walkDirs_normal_none hps hproject, Except.map]

/-- Below a root its owner may change and without the project's directory, both directories are
made, each with the directory mode. -/
theorem createDirAll_fresh (hroot : d.dirOf cwd root = .ok R) {mR : Nat}
    (hR : d.get? R = some (.dir mR)) (hmR : canChange mR) (hp : PlainName p)
    (hps : p.utf8ByteSize ≤ 255) (hr : PlainName r) (hrs : r.utf8ByteSize ≤ 255)
    (hnone : d.get? (R ++ [p]) = none) (hrun : d.get? (R ++ [p, r]) = none) :
    d.createDirAll cwd (join (join root p) r) =
      .ok ((d.put (R ++ [p]) (.dir dirMode)).put (R ++ [p, r]) (.dir dirMode)) := by
  have hne : R ++ [p, r] ≠ R ++ [p] := by simp
  have hpath : (R ++ [p, r]).dropLast = R ++ [p] := by
    rw [show R ++ [p, r] = (R ++ [p]) ++ [r] by simp, List.dropLast_concat]
  have hlocp : d.locate cwd (join root p) = .ok (R ++ [p]) := by
    rw [locate_join d cwd _ hp hps, hroot]
    rfl
  have hparentp : d.get? (R ++ [p]).dropLast = some (.dir mR) := by
    rw [List.dropLast_concat]
    exact hR
  have hcomps : components (join root p) ≠ [] := by simp [(components_join hp root).2]
  have hmkp : d.mkdir cwd (join root p) = .ok (d.put (R ++ [p]) (.dir dirMode)) :=
    mkdir_of_none hlocp (by simp) hnone hparentp hmR
  have hkeep : KeepsDirs d (d.put (R ++ [p]) (.dir dirMode)) := keepsDirs_put _ (by simp [hnone])
  have hproject₁ : (d.put (R ++ [p]) (.dir dirMode)).get? (R ++ [p]) = some (.dir dirMode) :=
    get?_put_self _ (by simp)
  have hrun₁ : (d.put (R ++ [p]) (.dir dirMode)).get? (R ++ [p, r]) = none := by
    rw [get?_put_ne _ hne, hrun]
  have hloc₁ := locate_run (walkDirs_keepsDirs hkeep hroot) hp hps hr hrs hproject₁
  exact createDirAll_join_of_parent hr hcomps
    (mkdir_of_locate_error (locate_run_of_none hroot hp hps hr hrs hnone)) hmkp
    (mkdir_of_none hloc₁ (by simp) hrun₁ (by rw [hpath]; exact hproject₁) canChange_dirMode)

/-- Making a run's directory below a root that is a directory makes the project's and the run's
directories where they are missing, and changes nothing else; or the owner may not change the
directory the first missing one goes in, and the call is refused. -/
theorem createDirAll_run (hroot : d.dirOf cwd root = .ok R) {mR : Nat}
    (hR : d.get? R = some (.dir mR)) (hp : PlainName p) (hps : p.utf8ByteSize ≤ 255)
    (hr : PlainName r) (hrs : r.utf8ByteSize ≤ 255)
    (hproject : d.get? (R ++ [p]) = none ∨ ∃ m, d.get? (R ++ [p]) = some (.dir m))
    (hrun : d.get? (R ++ [p, r]) = none ∨ ∃ m, d.get? (R ++ [p, r]) = some (.dir m))
    (horder : d.get? (R ++ [p]) = none → d.get? (R ++ [p, r]) = none) :
    (∃ d', d.createDirAll cwd (join (join root p) r) = .ok d' ∧
      (∃ m, d'.get? (R ++ [p]) = some (.dir m)) ∧ (∃ m, d'.get? (R ++ [p, r]) = some (.dir m)) ∧
      ∀ q, q ≠ R ++ [p] → q ≠ R ++ [p, r] → d'.get? q = d.get? q) ∨
    d.createDirAll cwd (join (join root p) r) = .error .permissionDenied := by
  have hne : R ++ [p, r] ≠ R ++ [p] := by simp
  have hpath : (R ++ [p, r]).dropLast = R ++ [p] := by
    rw [show R ++ [p, r] = (R ++ [p]) ++ [r] by simp, List.dropLast_concat]
  rcases hproject with hnone | ⟨m, hdir⟩
  · have hrun := horder hnone
    have hlocp : d.locate cwd (join root p) = .ok (R ++ [p]) := by
      rw [locate_join d cwd _ hp hps, hroot]
      rfl
    have hparentp : d.get? (R ++ [p]).dropLast = some (.dir mR) := by
      rw [List.dropLast_concat]
      exact hR
    have hmkrun := mkdir_of_locate_error (locate_run_of_none hroot hp hps hr hrs hnone)
    have hcomps : components (join root p) ≠ [] := by simp [(components_join hp root).2]
    cases hmR : canChange mR
    · exact .inr (createDirAll_join_of_denied hr hcomps hmkrun
        (mkdir_of_none_denied hlocp (by simp) hnone hparentp hmR) (isDirAt_of_none hlocp hnone))
    refine .inl ⟨_, createDirAll_fresh hroot hR hmR hp hps hr hrs hnone hrun,
      ⟨dirMode, by rw [get?_put_ne _ hne.symm, get?_put_self _ (by simp)]⟩,
      ⟨dirMode, get?_put_self _ (by simp)⟩, fun q hqp hqr => ?_⟩
    rw [get?_put_ne _ hqr, get?_put_ne _ hqp]
  · have hloc := locate_run hroot hp hps hr hrs hdir
    rcases hrun with hnone | ⟨m', hdir'⟩
    · have hempty : (join (join root p) r).isEmpty = false :=
        isEmpty_eq_false_of_components (by simp [(components_join hr _).2])
      have hparent : d.get? (R ++ [p, r]).dropLast = some (.dir m) := by
        rw [hpath]
        exact hdir
      cases hm : canChange m
      · exact .inr (createDirAll_of_denied hempty
          (mkdir_of_none_denied hloc (by simp) hnone hparent hm) (isDirAt_of_none hloc hnone))
      exact .inl ⟨_, createDirAll_of_mkdir hempty (mkdir_of_none hloc (by simp) hnone hparent hm),
        ⟨m, by rw [get?_put_ne _ hne.symm, hdir]⟩, ⟨dirMode, get?_put_self _ (by simp)⟩,
        fun q _ hqr => get?_put_ne _ hqr⟩
    · exact .inl ⟨d, createDirAll_of_dir hloc hdir', ⟨m, hdir⟩, ⟨m', hdir'⟩, fun _ _ _ => rfl⟩

end Run

end Disk

end RunJournal
