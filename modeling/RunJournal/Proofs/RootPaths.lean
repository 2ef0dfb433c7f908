import RunJournal.Proofs.MakeDirs
import RunJournal.Baseline.Manager
/-!
# Paths recorded against a root

A baseline record keeps its trace path below the ledger root when the path lies there
(`BaselineManager.relativeToRoot`), and reading the record joins it to the root again
(`BaselineManager.resolve`). Main statement, `BaselineManager.place_resolve_relativeToRoot`: for a
path with no backslash, the path read back leads where the path given does when that lies below the
root, and otherwise where the path leads from the root, which for an absolute path is where it
leads anyway.

Two facts of the path algebra carry it: joining walks on from where the base leads
(`Disk.place_join_eq`), and the components below a root print and read back as themselves
(`Path.components_ofComponents_plain`).
-/

namespace RunJournal

/-- What an intercalated list holds stands in the separator or in one of the pieces. -/
theorem mem_of_mem_intercalate {α : Type} {sep : List α} {ls : List (List α)} {x : α}
    (hx : x ∈ sep.intercalate ls) : x ∈ sep ∨ ∃ l ∈ ls, x ∈ l := by
  induction ls with
  | nil => simp at hx
  | cons l rest ih =>
    cases rest with
    | nil => exact .inr ⟨l, List.mem_singleton_self _, by simpa using hx⟩
    | cons l' rest' =>
      rw [List.intercalate_cons_of_ne_nil (by simp), List.mem_append, List.mem_append] at hx
      rcases hx with (hx | hx) | hx
      · exact .inr ⟨l, List.mem_cons_self, hx⟩
      · exact .inl hx
      · rcases ih hx with hx | ⟨l'', hl'', hx⟩
        · exact .inl hx
        · exact .inr ⟨l'', List.mem_cons_of_mem _ hl'', hx⟩

namespace Path

/-! ## What components are made of -/

theorem name_of_part {s n : String} (h : part s = some (.normal n)) : s = n := by
  unfold part at h
  split at h
  · cases h
  · split at h
    · cases h
    · cases h
      rfl

/-- After the first component come steps up and plain names, and the first is the root exactly
when the path is absolute. -/
theorem components_shape (p : String) :
    (∀ c ∈ (components p).tail, c.Plain) ∧
      ((components p).head? = some .root ↔ isAbsolute p = true) := by
  have hplain := plain_of_mem_filterMap fun s (hs : s ∈ parts p) => slash_not_mem_of_mem_parts hs
  rw [components_eq_ofParts]
  obtain ⟨first, rest, hparts⟩ := List.exists_cons_of_ne_nil (parts_ne_nil p)
  have hrest : ∀ c ∈ rest.filterMap part, c.Plain := plain_of_mem_filterMap fun s hs =>
    slash_not_mem_of_mem_parts (hparts ▸ List.mem_cons_of_mem first hs)
  cases habs : isAbsolute p with
  | true =>
    simp only [ofParts, if_true, List.singleton_append, List.tail_cons, List.head?_cons]
    exact ⟨hplain, trivial⟩
  | false =>
    by_cases hdot : first = "."
    · subst hdot
      rw [hparts, ofParts_dot]
      exact ⟨hrest, by simp⟩
    · rw [hparts, ofParts_of_ne_dot rest hdot, ← hparts]
      refine ⟨fun c hc => hplain c (List.mem_of_mem_tail hc), ⟨fun hroot => ?_, fun h => by cases h⟩⟩
      exact False.elim (hplain _ (List.mem_of_mem_head? hroot))

theorem mem_of_mem_components {p n : String} (hn : Component.normal n ∈ components p) :
    ∀ c ∈ n.toList, c ∈ p.toList := by
  rw [components_eq_ofParts] at hn
  unfold ofParts at hn
  rcases List.mem_append.1 hn with hhead | hbody
  · split at hhead
    · simp at hhead
    · split at hhead <;> simp at hhead
  · obtain ⟨s, hs, hpart⟩ := List.mem_filterMap.1 hbody
    have hs' : s ∈ parts p := by
      split at hs
      · exact hs
      · exact List.mem_of_mem_drop hs
    obtain ⟨l, hl, rfl⟩ := List.mem_map.1 hs'
    rw [← name_of_part hpart, String.toList_ofList]
    exact fun c hc => (mem_of_mem_splitOn hl c hc).1

/-- A character other than the separator and the dot stands in printed components only inside
their names. -/
theorem not_mem_ofComponents {ch : Char} (hsep : ch ≠ '/') (hdot : ch ≠ '.') {cs : List Component}
    (hnames : ∀ n, Component.normal n ∈ cs → ch ∉ n.toList) : ch ∉ (ofComponents cs).toList := by
  have htexts : ∀ ts : List Component, (∀ n, Component.normal n ∈ ts → ch ∉ n.toList) →
      ch ∉ (String.intercalate "/" (ts.map Component.text)).toList := by
    intro ts hts hmem
    rw [String.toList_intercalate] at hmem
    rcases mem_of_mem_intercalate hmem with h | ⟨l, hl, h⟩
    · exact hsep (by simpa using h)
    · obtain ⟨t, ht, rfl⟩ := List.mem_map.1 hl
      obtain ⟨c, hc, rfl⟩ := List.mem_map.1 ht
      cases c with
      | root => simp [Component.text] at h
      | current => exact hdot (by simpa [Component.text] using h)
      | parent => exact hdot (by simpa [Component.text] using h)
      | normal n => exact hts n hc h
  cases cs with
  | nil => simp [ofComponents]
  | cons c rest =>
    by_cases hroot : c = .root
    · subst hroot
      rw [ofComponents_root, String.toList_append]
      intro hmem
      rcases List.mem_append.1 hmem with h | h
      · exact hsep (by simpa using h)
      · exact htexts rest (fun n hn => hnames n (List.mem_cons_of_mem _ hn)) h
    · rw [ofComponents_of_head (by simpa using hroot)]
      exact htexts _ hnames

/-! ## Separators -/

theorem parts_append_slash (R : String) : parts (R ++ "/") = parts R ++ [""] := by
  have h := parts_append_sep R ""
  rwa [String.append_empty] at h

/-- A separator after a path that is not empty changes neither its components nor whether it is
absolute. -/
theorem components_append_slash {R : String} (hR : R.toList ≠ []) :
    components (R ++ "/") = components R ∧ isAbsolute (R ++ "/") = isAbsolute R := by
  refine ⟨?_, isAbsolute_append hR "/"⟩
  rw [components_eq_ofParts, components_eq_ofParts, isAbsolute_append hR, parts_append_slash,
    ofParts_append_single (parts_ne_nil R), part_empty, Option.toList_none, List.append_nil]

theorem components_slash_append (A T : String) :
    components (A ++ "/" ++ T) = components (A ++ "/") ++ (parts T).filterMap part ∧
      isAbsolute (A ++ "/" ++ T) = isAbsolute (A ++ "/") := by
  have hne : (A ++ "/").toList ≠ [] := by simp
  refine ⟨?_, isAbsolute_append hne T⟩
  have hempty : ([""] : List String).filterMap part = [] := by decide
  rw [components_eq_ofParts, components_eq_ofParts, isAbsolute_append hne, parts_append_sep,
    parts_append_slash, ofParts_append (parts_ne_nil A), ofParts_append (parts_ne_nil A), hempty,
    List.append_nil]

end Path

namespace Disk

open RunJournal.Path

/-- A relative path walks the parts that name something: a leading `.` goes nowhere. -/
theorem lexWalk_components_of_relative {T : String} (hT : isAbsolute T = false)
    (acc : List String) : lexWalk acc (components T) = lexWalk acc ((parts T).filterMap part) := by
  rw [components_eq_ofParts, hT]
  obtain ⟨first, rest, hparts⟩ := List.exists_cons_of_ne_nil (parts_ne_nil T)
  rw [hparts]
  by_cases hdot : first = "."
  · subst hdot
    rw [ofParts_dot]
    rfl
  · rw [ofParts_of_ne_dot rest hdot]

theorem place_slash_append (cwd : List String) (A T : String) :
    place cwd (A ++ "/" ++ T) = lexWalk (place cwd (A ++ "/")) ((parts T).filterMap part) := by
  obtain ⟨hcomps, habs⟩ := components_slash_append A T
  rw [place, place, hcomps, habs, lexWalk_append]

/-- Joining a path to a base walks on from where the base leads; an absolute path leads where it
does from anywhere. -/
theorem place_join_eq (cwd : List String) (R P : String) :
    place cwd (join R P) = place (place cwd R) P := by
  unfold join
  cases hP : isAbsolute P with
  | true => simp [place, hP]
  | false =>
    rw [if_neg (by simp)]
    have hfrom : place (place cwd R) P = lexWalk (place cwd R) ((parts P).filterMap part) := by
      rw [place, hP, if_neg (by simp), lexWalk_components_of_relative hP]
    rw [hfrom]
    split
    · next hbase =>
      rcases Bool.or_eq_true_iff.1 hbase with hempty | hslash
      · rw [String.isEmpty_iff.mp hempty, String.empty_append, place, hP, if_neg (by simp),
          lexWalk_components_of_relative hP]
        rfl
      · obtain ⟨front, hfront⟩ := List.getLast?_eq_some_iff.mp (by simpa using hslash)
        have hR : R = String.ofList front ++ "/" := by
          apply String.toList_inj.mp
          rw [hfront, String.toList_append, String.toList_ofList]
          rfl
        rw [hR, place_slash_append]
    · next hbase =>
      have hne : R.toList ≠ [] := by
        intro hnil
        exact hbase (by simp [String.isEmpty_iff.mpr (String.toList_inj.mp
          (hnil.trans String.toList_empty.symm))])
      obtain ⟨hcomps, habs⟩ := components_append_slash hne
      rw [place_slash_append, place, place, hcomps, habs]

/-- A path below a root, printed from where it leaves the root's components and joined to the
root again, leads where the path does. -/
theorem place_join_below {R P : String}
    (htake : (components P).take (components R).length = components R) (cwd : List String) :
    place cwd (join R (ofComponents ((components P).drop (components R).length))) =
      place cwd P := by
  have hsplit : components P = components R ++ (components P).drop (components R).length :=
    calc components P = (components P).take (components R).length ++
          (components P).drop (components R).length := (List.take_append_drop _ _).symm
      _ = components R ++ (components P).drop (components R).length := by rw [htake]
  rw [place_join_eq]
  cases hR : components R with
  | nil =>
    have hRrel : isAbsolute R = false := by
      cases habs : isAbsolute R with
      | false => rfl
      | true =>
        have := ((components_shape R).2).2 habs
        rw [hR] at this
        cases this
    obtain ⟨hc, ha⟩ := components_ofComponents P
    rw [List.length_nil, List.drop_zero]
    rw [show place cwd R = cwd by rw [place, hRrel, hR]; rfl, place, place, hc, ha]
  | cons r rs =>
    have hplain : ∀ c ∈ (components P).drop (r :: rs).length, c.Plain := by
      intro c hc
      apply (components_shape P).1 c
      cases hP : components P with
      | nil => simp [hP] at hc
      | cons x xs =>
        rw [hP, List.length_cons, List.drop_succ_cons] at hc
        exact List.mem_of_mem_drop hc
    obtain ⟨hc, ha⟩ := components_ofComponents_plain hplain
    have habs : isAbsolute P = isAbsolute R := by
      have hhead : (components P).head? = (components R).head? := by
        rw [hsplit, hR, List.cons_append, List.head?_cons, List.head?_cons]
      rw [Bool.eq_iff_iff, ← (components_shape P).2, ← (components_shape R).2, hhead]
    rw [place, place, ha, hc, if_neg (by simp), place, ← lexWalk_append, ← hR, ← hsplit, habs]

end Disk

namespace Path

/-- The path with every backslash written as a slash, so that it separates components. -/
def slashes (p : String) : String :=
  String.ofList (p.toList.map fun c => if c = '\\' then '/' else c)

theorem slashes_of_not_mem {p : String} (h : '\\' ∉ p.toList) : slashes p = p := by
  have hsame : ∀ c ∈ p.toList, (if c = '\\' then '/' else c) = id c :=
    fun c hc => if_neg fun (hc' : c = '\\') => h (hc' ▸ hc)
  rw [slashes, List.map_congr_left hsame, List.map_id, String.ofList_toList]

end Path

namespace BaselineManager

open RunJournal.Path

/-- A path is recorded as its part below the root when it lies there, and as it is otherwise, with
every backslash written as a slash. -/
theorem relativeToRoot_eq_slashes (m : BaselineManager) (path : String) :
    m.relativeToRoot path = slashes ((stripRoot m.settings.root path).getD path) := rfl

/-- A path with no backslash is recorded as its part below the root when it lies there, and as it
is otherwise. -/
theorem relativeToRoot_eq (m : BaselineManager) {path : String} (hslash : '\\' ∉ path.toList) :
    m.relativeToRoot path = (stripRoot m.settings.root path).getD path := by
  have hkept : '\\' ∉ ((stripRoot m.settings.root path).getD path).toList := by
    unfold stripRoot
    dsimp only
    split
    · refine not_mem_ofComponents (by decide) (by decide) fun n hn hmem => hslash ?_
      exact mem_of_mem_components (List.mem_of_mem_drop hn) _ hmem
    · exact hslash
  rw [relativeToRoot_eq_slashes, slashes_of_not_mem hkept]

/-- Where the trace path read back leads: where the path given leads when it lies below the root,
and otherwise where it leads from the root; for an absolute path both are where it leads. -/
theorem place_resolve_relativeToRoot (m : BaselineManager) (cwd : List String) {path : String}
    (hslash : '\\' ∉ path.toList) :
    Disk.place cwd (m.resolve (m.relativeToRoot path)) =
      Disk.place (if (stripRoot m.settings.root path).isSome then cwd
        else Disk.place cwd m.settings.root) path := by
  rw [relativeToRoot_eq m hslash, resolve]
  by_cases htake : (components path).take (components m.settings.root).length =
      components m.settings.root
  · have hstrip : stripRoot m.settings.root path =
        some (ofComponents ((components path).drop (components m.settings.root).length)) :=
      if_pos htake
    rw [hstrip, Option.getD_some, Option.isSome_some, if_pos rfl]
    exact Disk.place_join_below htake cwd
  · have hstrip : stripRoot m.settings.root path = none := if_neg htake
    rw [hstrip, Option.getD_none, Option.isSome_none, if_neg (by simp)]
    exact Disk.place_join_eq cwd _ _

end BaselineManager

end RunJournal
