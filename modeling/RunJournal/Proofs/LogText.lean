import RunJournal.Store.Log
/-!
# Log text

A log is text: lines of bytes, each ended by a line feed except perhaps the last
(`logBytes ended last`). Split at line feeds it gives back its lines, cut anywhere it gives the rest
of one line and the lines after it, and read as text it decodes line by line.

Appends leave on a log a prefix of what they write: a line feed that ends an open last line, the
event's line, a line feed. `Written` records, append by append, what reached the log of the
event's line. Reading such a log gives exactly the events whose lines reached it whole
(`Written.eventsFrom_lines`), provided every line cut short ends on a character boundary; one cut
inside a character makes the whole log unreadable as text (`Written.lines_mapM_none`). The tail
scan finds the last event written whole, or nothing (`Written.Holds.lastEventSeq?_tail`).

What the readers need of an event is its framing (`Event.Framed`): its line reads back as the
event, no part of it cut short reads as an event, and it holds no line break.
-/

namespace RunJournal

/-! ## The bytes of a string -/

theorem ByteArray.toList_eq_data (b : ByteArray) : b.toList = b.data.toList := by
  suffices h : ∀ i r, ByteArray.toList.loop b i r = r.reverse ++ b.data.toList.drop i from h 0 []
  intro i r
  fun_induction ByteArray.toList.loop b i r with
  | case1 i r hi ih =>
    have hlt : i < b.data.toList.length := by simpa using hi
    rw [ih, List.drop_eq_getElem_cons hlt]
    simp [ByteArray.get!, hi]
  | case2 i r hi =>
    have hend : b.data.toList.drop i = [] := List.drop_eq_nil_of_le (by simp; omega)
    simp [hend]

theorem toUTF8_toList_append (s t : String) :
    (s ++ t).toUTF8.toList = s.toUTF8.toList ++ t.toUTF8.toList := by
  simp [ByteArray.toList_eq_data, String.toByteArray_append, ByteArray.data_append]

theorem toUTF8_toList_newline : "\n".toUTF8.toList = [10] := by
  rw [ByteArray.toList_eq_data]
  rfl

theorem fromUTF8?_toUTF8_toList (s : String) :
    String.fromUTF8? ⟨s.toUTF8.toList.toArray⟩ = some s := by
  have hbytes : (⟨s.toUTF8.toList.toArray⟩ : ByteArray) = s.toByteArray := by
    simp [ByteArray.toList_eq_data]
  rw [hbytes, String.fromUTF8?, dif_pos s.isValidUTF8]
  rfl

theorem toUTF8_toList_of_fromUTF8? {b : List UInt8} {s : String}
    (h : String.fromUTF8? ⟨b.toArray⟩ = some s) : s.toUTF8.toList = b := by
  simp only [String.fromUTF8?] at h
  split at h
  · cases h
    simp [ByteArray.toList_eq_data, String.fromUTF8]
  · cases h

/-! ## Lines -/

private theorem splitLines_foldl (bytes cur : List UInt8) (acc : List (List UInt8)) :
    (let r := bytes.foldl (fun (cur, acc) b =>
        if b = 10 then ([], cur.reverse :: acc) else (b :: cur, acc)) (cur, acc)
     (r.1.reverse :: r.2).reverse)
      = acc.reverse ++ List.splitOnPPrepend (· == 10) bytes cur := by
  induction bytes generalizing cur acc with
  | nil => simp
  | cons b rest ih =>
    by_cases hb : b = 10
    · simp only [List.foldl_cons, hb, if_true]
      rw [ih, List.splitOnPPrepend_cons_pos (by simp)]
      simp
    · simp only [List.foldl_cons, hb, if_false]
      rw [ih, List.splitOnPPrepend_cons_neg (by simpa using hb)]

theorem splitLines_eq_splitOn (bytes : List UInt8) : splitLines bytes = bytes.splitOn 10 := by
  have h := splitLines_foldl bytes [] []
  rw [List.reverse_nil, List.nil_append, ← List.splitOnP_eq_splitOnPPrepend,
    ← List.splitOn_eq_splitOnP] at h
  exact h

/-- The bytes of a log whose ended lines are `ended` and whose last line, not ended by a line feed,
is `last` (empty when the log ends with a line feed). -/
def logBytes (ended : List (List UInt8)) (last : List UInt8) : List UInt8 :=
  ended.flatMap (· ++ [10]) ++ last

/-- A line of a log: bytes without a line break. -/
def PlainLine (l : List UInt8) : Prop := 10 ∉ l ∧ 13 ∉ l

section Lines

variable {ended : List (List UInt8)} {last : List UInt8}

theorem logBytes_eq_intercalate (ended : List (List UInt8)) (last : List UInt8) :
    logBytes ended last = [10].intercalate (ended ++ [last]) := by
  induction ended with
  | nil => simp [logBytes]
  | cons l rest ih =>
    rw [List.cons_append, List.intercalate_cons_of_ne_nil (by simp), ← ih]
    simp [logBytes]

theorem logBytes_append_last (x : List UInt8) :
    logBytes ended last ++ x = logBytes ended (last ++ x) := by
  simp [logBytes]

theorem logBytes_append_break (x : List UInt8) :
    logBytes ended last ++ 10 :: x = logBytes (ended ++ [last]) x := by
  simp [logBytes]

/-- A log needs a line feed before the next line exactly when its last line is open. -/
theorem logBytes_getLast?_any (hlast : 10 ∉ last) :
    (logBytes ended last).getLast?.any (· ≠ 10) = decide (last ≠ []) := by
  by_cases hnil : last = []
  · subst hnil
    rcases List.eq_nil_or_concat ended with rfl | ⟨front, l, rfl⟩
    · simp [logBytes]
    · simp [logBytes]
  · obtain ⟨b, hb⟩ : ∃ b, last.getLast? = some b := by
      cases hl : last.getLast? with
      | none => exact absurd (List.getLast?_eq_none_iff.mp hl) hnil
      | some b => exact ⟨b, rfl⟩
    have hb10 : b ≠ 10 := fun h => hlast (h ▸ List.mem_of_getLast? hb)
    simp [logBytes, List.getLast?_append, hb, hb10, hnil]

theorem splitLines_logBytes (hplain : ∀ l ∈ ended ++ [last], 10 ∉ l) :
    splitLines (logBytes ended last) = ended ++ [last] := by
  rw [splitLines_eq_splitOn, logBytes_eq_intercalate, List.splitOn_intercalate _ hplain (by simp)]

private theorem mapM_zipIdx {α β : Type} (ls : List α) (n : Nat) (g : α × Nat → Option β)
    (f : α → Option β) (hg : ∀ l ∈ ls, ∀ i, g (l, i) = f l) :
    (ls.zipIdx n).mapM g = ls.mapM f := by
  induction ls generalizing n with
  | nil => rfl
  | cons l rest ih =>
    rw [List.zipIdx_cons, List.mapM_cons, List.mapM_cons, hg l (by simp),
      ih (n + 1) (fun l' hl' => hg l' (by simp [hl']))]

/-- Read as text, a log gives its lines decoded, when no line holds a line feed and none of them
ends with a carriage return. -/
theorem textLines_logBytes_of_ends (hplain : ∀ l ∈ ended ++ [last], 10 ∉ l)
    (hcr : ∀ l ∈ ended ++ (if last = [] then [] else [last]), l.getLast? ≠ some 13) :
    textLines (logBytes ended last) =
      (ended ++ (if last = [] then [] else [last])).mapM fun l => String.fromUTF8? ⟨l.toArray⟩ := by
  have hsplit := splitLines_logBytes hplain
  have hlines : (if some last = some [] then (ended ++ [last]).dropLast else ended ++ [last])
      = ended ++ (if last = [] then [] else [last]) := by
    by_cases hlast : last = [] <;> simp [hlast]
  simp only [textLines, hsplit, List.getLast?_append, List.getLast?_singleton, Option.some_or]
  rw [hlines]
  apply mapM_zipIdx
  intro l hl i
  simp [hcr l hl]

theorem textLines_logBytes (hplain : ∀ l ∈ ended ++ [last], PlainLine l) :
    textLines (logBytes ended last) =
      (ended ++ (if last = [] then [] else [last])).mapM fun l => String.fromUTF8? ⟨l.toArray⟩ := by
  refine textLines_logBytes_of_ends (fun l hl => (hplain l hl).1) fun l hl h => ?_
  -- no line holds a carriage return, so none ends with one
  have hmem : l ∈ ended ++ [last] := by
    by_cases hlast : last = [] <;> simp_all
  exact (hplain l hmem).2 (List.mem_of_getLast? h)

/-- Cut anywhere, a log splits into the rest of the line the cut falls in and the lines after it. -/
theorem splitLines_drop_logBytes (n : Nat) (hplain : ∀ l ∈ ended ++ [last], 10 ∉ l) :
    ∃ front x back r, ended ++ [last] = front ++ x :: back ∧
      splitLines ((logBytes ended last).drop n) = x.drop r :: back := by
  induction ended generalizing n with
  | nil =>
    refine ⟨[], last, [], n, rfl, ?_⟩
    have hlast : 10 ∉ last := hplain last (by simp)
    rw [splitLines_eq_splitOn, logBytes, List.flatMap_nil, List.nil_append,
      List.splitOn_eq_singleton (fun h => hlast (List.mem_of_mem_drop h))]
  | cons l rest ih =>
    have hl : 10 ∉ l := hplain l (by simp)
    have hrest : ∀ l' ∈ rest ++ [last], 10 ∉ l' := fun l' h' => hplain l' (by simp_all)
    have hbytes : logBytes (l :: rest) last = l ++ 10 :: logBytes rest last := by
      simp [logBytes]
    by_cases hn : n ≤ l.length
    · refine ⟨[], l, rest ++ [last], n, rfl, ?_⟩
      rw [hbytes, List.drop_append_of_le_length hn, splitLines_eq_splitOn,
        List.splitOn_append_cons_self_of_not_mem (fun h => hl (List.mem_of_mem_drop h)),
        ← splitLines_eq_splitOn, splitLines_logBytes hrest]
    · obtain ⟨front, x, back, r, hparts, hsplit⟩ := ih (n - (l.length + 1)) hrest
      refine ⟨l :: front, x, back, r, by simp [hparts], ?_⟩
      have hdrop : (logBytes (l :: rest) last).drop n
          = (logBytes rest last).drop (n - (l.length + 1)) := by
        have hk : n - l.length = (n - (l.length + 1)) + 1 := by omega
        rw [hbytes, List.drop_append, List.drop_eq_nil_of_le (by omega), List.nil_append, hk,
          List.drop_succ_cons]
      rw [hdrop, hsplit]

theorem tailPieces_eq (bytes : List UInt8) :
    tailPieces bytes = if bytes.length > tailWindow
      then (splitLines (bytes.drop (bytes.length - tailWindow))).drop 1
      else splitLines bytes := by
  have hwindow : (bytes.reverse.take tailWindow).reverse
      = bytes.drop (bytes.length - tailWindow) := by
    rw [List.take_reverse, List.reverse_reverse]
  by_cases hlong : bytes.length > tailWindow
  · simp [tailPieces, hlong, hwindow]
  · have hzero : bytes.length - tailWindow = 0 := by omega
    simp [tailPieces, hlong, hwindow, hzero]

theorem tailPieces_logBytes (hplain : ∀ l ∈ ended ++ [last], 10 ∉ l) :
    ∃ front, ended ++ [last] = front ++ tailPieces (logBytes ended last) := by
  rw [tailPieces_eq]
  by_cases hlong : (logBytes ended last).length > tailWindow
  · obtain ⟨front, x, back, r, hparts, hsplit⟩ :=
      splitLines_drop_logBytes ((logBytes ended last).length - tailWindow) hplain
    refine ⟨front ++ [x], ?_⟩
    simp [hlong, hsplit, hparts]
  · refine ⟨[], ?_⟩
    simp [hlong, splitLines_logBytes hplain]

end Lines

theorem lastEventSeq?_append (front back : List (List UInt8)) :
    lastEventSeq? (front ++ back) = (lastEventSeq? back).or (lastEventSeq? front) := by
  simp [lastEventSeq?, List.findSome?_append]

theorem readText_eq_readBytes {α : Type} (r : Json.Reader α) (s : String) :
    Json.readText r s = Json.readBytes r s.toUTF8.toList := rfl

namespace Event

/-- The bytes of an event's log line, without its line feed. -/
def lineBytes (e : Event) : List UInt8 := e.line.toUTF8.toList

theorem line_eq_brace (e : Event) : ∃ rest, e.line = "\x7b" ++ rest := by
  have hobj : ∀ ms, Json.compact (.obj ms) = "\x7b" ++ (Json.compactMembers ms ++ "\x7d") := by
    intro ms
    simp [Json.compact, String.append_assoc]
  exact ⟨_, hobj _⟩

theorem lineBytes_eq_cons (e : Event) : ∃ rest, e.lineBytes = 123 :: rest := by
  obtain ⟨rest, hrest⟩ := e.line_eq_brace
  have hbrace : "\x7b".toUTF8.toList = [123] := by
    rw [ByteArray.toList_eq_data]
    rfl
  exact ⟨rest.toUTF8.toList, by rw [lineBytes, hrest, toUTF8_toList_append, hbrace]; rfl⟩

theorem not_blankLine_line (e : Event) : blankLine e.line = false := by
  obtain ⟨rest, hrest⟩ := e.line_eq_brace
  have hbrace : "\x7b".toList = ['\x7b'] := rfl
  have hblank : Rfc3339.isBlank '\x7b' = false := by decide
  simp [blankLine, hrest, String.all_bool_eq, String.toList_append, hbrace, hblank]

theorem lineBytes_not_blank (e : Event) : e.lineBytes.all isAsciiBlank = false := by
  obtain ⟨rest, hrest⟩ := e.lineBytes_eq_cons
  simp [hrest, isAsciiBlank]

end Event

/-- What the log readers need of an event's JSON text: it reads back as the event, no part of it
cut short reads as an event, and it holds no line break. -/
structure Event.Framed (e : Event) : Prop where
  reads : Json.readBytes Read.event e.lineBytes = .ok e
  cutFails : ∀ j < e.lineBytes.length, ∀ x, Json.readBytes Read.event (e.lineBytes.take j) ≠ .ok x
  plain : PlainLine e.lineBytes

def decodeLine (l : List UInt8) : Option String := String.fromUTF8? ⟨l.toArray⟩

/-- What reached a log of each event appended: a prefix of its line, the whole line when the
append went through. -/
abbrev Written := List (Event × List UInt8)

/-- The lines a log holds: what each append left, where it left anything. -/
def Written.lines (ws : Written) : List (List UInt8) := (ws.map (·.2)).filter (· ≠ [])

/-- The events whose lines reached the log whole, from sequence number `k` on. -/
def Written.complete (ws : Written) (k : Nat) : List Event :=
  ws.filterMap fun (e, wr) => if wr = e.lineBytes ∧ k ≤ e.seq then some e else none

/-- Every line cut short ends on a character boundary. -/
def Written.Decodable (ws : Written) : Prop :=
  ∀ p ∈ ws, p.2 ≠ [] → (decodeLine p.2).isSome

instance (ws : Written) : Decidable ws.Decodable :=
  inferInstanceAs (Decidable (∀ p ∈ ws, p.2 ≠ [] → (decodeLine p.2).isSome))

/-- Each event is framed and what reached the log of it is a prefix of its line. -/
def Written.Prefixes (ws : Written) : Prop :=
  ∀ p ∈ ws, p.1.Framed ∧ p.2 <+: p.1.lineBytes

section Reading

variable {e : Event} {wr : List UInt8}

theorem decodeLine_lineBytes (e : Event) : decodeLine e.lineBytes = some e.line :=
  fromUTF8?_toUTF8_toList e.line

theorem eq_take_of_prefix {l : List UInt8} (hpre : wr <+: l) (hcut : wr ≠ l) :
    ∃ j < l.length, wr = l.take j := by
  refine ⟨wr.length, ?_, List.prefix_iff_eq_take.mp hpre⟩
  rcases Nat.lt_or_eq_of_le hpre.length_le with hlt | heq
  · exact hlt
  · exact absurd (hpre.eq_of_length heq) hcut

theorem Event.Framed.cut_fails (hframed : e.Framed) (hpre : wr <+: e.lineBytes)
    (hcut : wr ≠ e.lineBytes) (x : Event) : Json.readBytes Read.event wr ≠ .ok x := by
  obtain ⟨j, hj, rfl⟩ := eq_take_of_prefix hpre hcut
  exact hframed.cutFails j hj x

theorem eventsFrom_cons (s : String) (ls : List String) (k : Nat) :
    eventsFrom (s :: ls) k = eventsFrom [s] k ++ eventsFrom ls k := by
  rw [← List.singleton_append, eventsFrom, List.filterMap_append]
  rfl

theorem eventsFrom_written (hframed : e.Framed) (hpre : wr <+: e.lineBytes) {s : String}
    (hdecode : decodeLine wr = some s) (k : Nat) :
    eventsFrom [s] k = if wr = e.lineBytes ∧ k ≤ e.seq then [e] else [] := by
  have hbytes : s.toUTF8.toList = wr := toUTF8_toList_of_fromUTF8? hdecode
  simp only [eventsFrom, List.filterMap_cons, List.filterMap_nil]
  by_cases hwhole : wr = e.lineBytes
  · subst hwhole
    have hs : s = e.line := by
      rw [decodeLine_lineBytes] at hdecode
      exact (Option.some.inj hdecode).symm
    subst hs
    rw [if_neg (by simp [e.not_blankLine_line]), readText_eq_readBytes, hbytes, hframed.reads]
    by_cases hk : k ≤ e.seq <;> simp [hk]
  · have hfail : ∀ x, Json.readText Read.event s ≠ .ok x := by
      rw [readText_eq_readBytes, hbytes]
      exact hframed.cut_fails hpre hwhole
    rw [if_neg (show ¬(wr = e.lineBytes ∧ k ≤ e.seq) from fun h => hwhole h.1)]
    split
    · rfl
    · next b hb =>
      exfalso
      split at hb
      · cases hb
      · split at hb
        · next x hx => exact hfail x hx
        · cases hb

theorem Written.lines_cons (e : Event) (wr : List UInt8) (ws : Written) :
    Written.lines ((e, wr) :: ws) = if wr = [] then ws.lines else wr :: ws.lines := by
  by_cases hwr : wr = [] <;> simp [Written.lines, hwr]

theorem Written.complete_cons (e : Event) (wr : List UInt8) (ws : Written) (k : Nat) :
    Written.complete ((e, wr) :: ws) k
      = (if wr = e.lineBytes ∧ k ≤ e.seq then [e] else []) ++ ws.complete k := by
  by_cases hwhole : wr = e.lineBytes ∧ k ≤ e.seq <;> simp [Written.complete, hwhole]

theorem Event.lineBytes_ne_nil (e : Event) : e.lineBytes ≠ [] := by
  obtain ⟨rest, hrest⟩ := e.lineBytes_eq_cons
  simp [hrest]

/-- A log whose cut lines all end on a character boundary reads as its whole lines, in order. -/
theorem Written.eventsFrom_lines {ws : Written} (hws : ws.Prefixes) (hdec : ws.Decodable)
    (k : Nat) : ∃ strs, ws.lines.mapM decodeLine = some strs ∧ eventsFrom strs k = ws.complete k := by
  induction ws with
  | nil => exact ⟨[], rfl, rfl⟩
  | cons p rest ih =>
    obtain ⟨e, wr⟩ := p
    obtain ⟨strs, hstrs, hevents⟩ := ih (fun q hq => hws q (by simp [hq]))
      (fun q hq => hdec q (by simp [hq]))
    have hframed : e.Framed := (hws (e, wr) (by simp)).1
    have hpre : wr <+: e.lineBytes := (hws (e, wr) (by simp)).2
    rw [Written.lines_cons, Written.complete_cons]
    by_cases hwr : wr = []
    · subst hwr
      have hpart : ¬([] = e.lineBytes ∧ k ≤ e.seq) := fun h => e.lineBytes_ne_nil h.1.symm
      refine ⟨strs, by simpa using hstrs, ?_⟩
      rw [if_neg hpart, List.nil_append]
      exact hevents
    · obtain ⟨s, hs⟩ := Option.isSome_iff_exists.mp (hdec (e, wr) (by simp) hwr)
      refine ⟨s :: strs, by simp [hwr, hs, hstrs], ?_⟩
      rw [eventsFrom_cons, eventsFrom_written hframed hpre hs, hevents]

theorem Written.decodable_of_lines_nil {ws : Written} (h : ws.lines = []) : ws.Decodable := by
  intro q hq hne
  have hmem : q.2 ∈ ws.lines :=
    List.mem_filter.mpr ⟨List.mem_map.mpr ⟨q, hq, rfl⟩, by simpa using hne⟩
  simp [h] at hmem

theorem Written.complete_eq_filter (ws : Written) (k : Nat) :
    ws.complete k = (ws.complete 0).filter fun e => k ≤ e.seq := by
  induction ws with
  | nil => rfl
  | cons p rest ih =>
    obtain ⟨e, wr⟩ := p
    rw [Written.complete_cons, Written.complete_cons, ih, List.filter_append]
    by_cases hwhole : wr = e.lineBytes <;> by_cases hk : k ≤ e.seq <;> simp [hwhole, hk]

/-- The events a run of appends left whole are a sub-list of the events appended. -/
theorem Written.complete_sublist (ws : Written) (k : Nat) : (ws.complete k).Sublist (ws.map (·.1)) := by
  induction ws with
  | nil => exact .slnil
  | cons q rest ih =>
    obtain ⟨e, wr⟩ := q
    rw [Written.complete_cons]
    by_cases hwhole : wr = e.lineBytes ∧ k ≤ e.seq
    · rw [if_pos hwhole]
      exact ih.cons_cons e
    · rw [if_neg hwhole]
      exact ih.cons e

theorem Written.complete_eq_nil_of_lines_nil {ws : Written} (h : ws.lines = []) (k : Nat) :
    ws.complete k = [] := by
  rw [List.eq_nil_iff_forall_not_mem]
  intro e he
  obtain ⟨⟨e', wr⟩, hmem, hsome⟩ := List.mem_filterMap.mp he
  by_cases hwhole : wr = e'.lineBytes ∧ k ≤ e'.seq
  · have hline : wr ∈ ws.lines := List.mem_filter.mpr
      ⟨List.mem_map.mpr ⟨(e', wr), hmem, rfl⟩, by simpa [hwhole.1] using e'.lineBytes_ne_nil⟩
    simp [h] at hline
  · simp [hwhole] at hsome

theorem Written.lines_mapM_none {ws : Written} (hdec : ¬ ws.Decodable) :
    ws.lines.mapM decodeLine = none := by
  induction ws with
  | nil => exact absurd (fun q hq => by simp at hq) hdec
  | cons p rest ih =>
    obtain ⟨e, wr⟩ := p
    rw [Written.lines_cons]
    by_cases hbad : (wr ≠ [] ∧ decodeLine wr = none)
    · obtain ⟨hwr, hnone⟩ := hbad
      simp [hwr, hnone]
    · have hrest : ¬ Written.Decodable rest := by
        intro hgood
        apply hdec
        intro q hq hq2
        rcases List.mem_cons.mp hq with rfl | hq
        · cases hd : decodeLine wr with
          | none => exact absurd ⟨hq2, hd⟩ hbad
          | some _ => simp
        · exact hgood q hq hq2
      by_cases hwr : wr = []
      · simp [hwr, ih hrest]
      · simp [hwr, ih hrest]

/-- One line left by an append names a sequence number exactly when it is whole. -/
theorem lastEventSeq?_written (hframed : e.Framed) (hpre : wr <+: e.lineBytes) :
    lastEventSeq? [wr] = if wr = e.lineBytes then some e.seq else none := by
  simp only [lastEventSeq?, List.reverse_singleton, List.findSome?_singleton]
  by_cases hwhole : wr = e.lineBytes
  · subst hwhole
    simp [e.lineBytes_not_blank, hframed.reads]
  · rw [if_neg hwhole]
    split
    · rfl
    · cases hread : Json.readBytes Read.event wr with
      | ok x => exact absurd hread (hframed.cut_fails hpre hwhole x)
      | error _ => rfl

/-- The tail scan over all of a log's lines finds the last event written whole. -/
theorem Written.lastEventSeq?_lines {ws : Written} (hws : ws.Prefixes) :
    lastEventSeq? ws.lines = (ws.complete 0).getLast?.map (·.seq) := by
  induction ws with
  | nil => rfl
  | cons p rest ih =>
    obtain ⟨e, wr⟩ := p
    have hframed : e.Framed := (hws (e, wr) (by simp)).1
    have hpre : wr <+: e.lineBytes := (hws (e, wr) (by simp)).2
    have hrest := ih (fun q hq => hws q (by simp [hq]))
    rw [Written.lines_cons, Written.complete_cons, List.getLast?_append]
    by_cases hwr : wr = []
    · subst hwr
      simp [hrest, e.lineBytes_ne_nil.symm]
    · rw [if_neg hwr, ← List.singleton_append, lastEventSeq?_append, hrest,
        lastEventSeq?_written hframed hpre]
      by_cases hwhole : wr = e.lineBytes <;> simp [hwhole]

end Reading

/-- A log holding what appends left: its ended lines and its last line are, in order, the
non-empty prefixes the appends left. -/
structure Written.Holds (ws : Written) (ended : List (List UInt8)) (last : List UInt8) : Prop where
  prefixes : ws.Prefixes
  lines : ws.lines = ended ++ (if last = [] then [] else [last])

theorem foldl_max_of_sorted {xs : List Nat} (hsorted : xs.Pairwise (· ≤ ·)) (a : Nat) :
    xs.foldl max a = (xs.getLast?.map (max a ·)).getD a := by
  induction xs generalizing a with
  | nil => rfl
  | cons x rest ih =>
    rw [List.foldl_cons, ih (List.pairwise_cons.mp hsorted).2]
    cases hlast : rest.getLast? with
    | none =>
      simp [List.getLast?_eq_none_iff.mp hlast]
    | some l =>
      have hxl : x ≤ l := (List.pairwise_cons.mp hsorted).1 l (List.mem_of_getLast? hlast)
      have hcons : (x :: rest).getLast? = some l := by
        rw [List.getLast?_cons, hlast]
        rfl
      simp only [Option.map_some, Option.getD_some, hcons]
      omega

theorem foldl_max_filter_pos (xs : List Nat) (a : Nat) :
    (xs.filter (1 ≤ ·)).foldl max a = xs.foldl max a := by
  induction xs generalizing a with
  | nil => rfl
  | cons x rest ih =>
    by_cases hx : 1 ≤ x
    · simp [hx, ih]
    · have hzero : max a x = a := by omega
      simp [hx, ih, hzero]

section Holds

variable {ws : Written} {ended : List (List UInt8)} {last : List UInt8} {e : Event}

theorem Written.Prefixes.plain (hws : ws.Prefixes) : ∀ l ∈ ws.lines, PlainLine l := by
  intro l hl
  obtain ⟨hmem, -⟩ := List.mem_filter.mp hl
  obtain ⟨p, hp, rfl⟩ := List.mem_map.mp hmem
  obtain ⟨hframed, hpre⟩ := hws p hp
  exact ⟨fun h => hframed.plain.1 (hpre.subset h), fun h => hframed.plain.2 (hpre.subset h)⟩

theorem Written.Holds.plain (h : ws.Holds ended last) : ∀ l ∈ ended ++ [last], PlainLine l := by
  intro l hl
  by_cases hlast : last = []
  · rcases List.mem_append.mp hl with hl | hl
    · exact h.prefixes.plain l (by rw [h.lines]; simp [hl])
    · simp only [List.mem_singleton] at hl
      subst hl
      simp [hlast, PlainLine]
  · exact h.prefixes.plain l (by rw [h.lines]; simpa [hlast] using hl)

theorem Written.Holds.textLines (h : ws.Holds ended last) :
    textLines (logBytes ended last) = ws.lines.mapM decodeLine := by
  rw [textLines_logBytes h.plain, h.lines]
  rfl

/-- Scanned whole, a log names the last event written whole: the empty piece after a final line
feed names nothing. -/
theorem Written.Holds.lastEventSeq?_pieces (h : ws.Holds ended last) :
    lastEventSeq? (ended ++ [last]) = (ws.complete 0).getLast?.map (·.seq) := by
  rw [← Written.lastEventSeq?_lines h.prefixes, h.lines]
  by_cases hlast : last = []
  · subst hlast
    simp [lastEventSeq?, isAsciiBlank]
  · simp [hlast]

/-- The tail scan, wherever the window starts, finds the last event written whole or nothing. -/
theorem Written.Holds.lastEventSeq?_tail (h : ws.Holds ended last) {s : Nat}
    (hfound : lastEventSeq? (tailPieces (logBytes ended last)) = some s) :
    (ws.complete 0).getLast?.map (·.seq) = some s := by
  obtain ⟨front, hfront⟩ := tailPieces_logBytes (fun l hl => (h.plain l hl).1)
  rw [← h.lastEventSeq?_pieces, hfront, lastEventSeq?_append, hfound]
  rfl

theorem Written.Holds.lastEventSeq?_short (h : ws.Holds ended last)
    (hshort : (logBytes ended last).length ≤ tailWindow) :
    lastEventSeq? (tailPieces (logBytes ended last)) = (ws.complete 0).getLast?.map (·.seq) := by
  have hpieces : tailPieces (logBytes ended last) = ended ++ [last] := by
    rw [tailPieces_eq, if_neg (by omega), splitLines_logBytes (fun l hl => (h.plain l hl).1)]
  rw [hpieces, h.lastEventSeq?_pieces]

theorem Written.lines_append_single (ws : Written) (e : Event) (wr : List UInt8) :
    Written.lines (ws ++ [(e, wr)]) = ws.lines ++ (if wr = [] then [] else [wr]) := by
  by_cases hwr : wr = [] <;> simp [Written.lines, hwr]

theorem Written.Prefixes.append (hws : ws.Prefixes) (hframed : e.Framed) (j : Nat) :
    Written.Prefixes (ws ++ [(e, e.lineBytes.take j)]) := by
  intro p hp
  rcases List.mem_append.mp hp with hp | hp
  · exact hws p hp
  · simp only [List.mem_singleton] at hp
    subst hp
    exact ⟨hframed, List.take_prefix _ _⟩

theorem Written.Holds.append_nothing (h : ws.Holds ended last) (hframed : e.Framed) :
    (ws ++ [(e, e.lineBytes.take 0)]).Holds ended last :=
  ⟨h.prefixes.append hframed 0, by simpa [Written.lines_append_single] using h.lines⟩

/-- An append to a log that ends with a line feed, or is empty, leaves the first `k` bytes of the
event's line and line feed. -/
theorem Written.Holds.append_fresh (h : ws.Holds ended []) (hframed : e.Framed) (k : Nat) :
    ∃ ended' last', (ws ++ [(e, e.lineBytes.take k)]).Holds ended' last' ∧
      logBytes ended [] ++ (e.lineBytes ++ [10]).take k = logBytes ended' last' := by
  have hlines : ws.lines = ended := by simpa using h.lines
  by_cases hk : k ≤ e.lineBytes.length
  · -- the line is cut before its line feed: it stays open
    refine ⟨ended, e.lineBytes.take k, ⟨h.prefixes.append hframed k, ?_⟩, ?_⟩
    · rw [Written.lines_append_single, hlines]
    · rw [List.take_append_of_le_length hk, logBytes_append_last, List.nil_append]
  · -- the whole line and its line feed reached the log
    have hwhole : e.lineBytes.take k = e.lineBytes := List.take_of_length_le (by omega)
    refine ⟨ended ++ [e.lineBytes], [], ⟨h.prefixes.append hframed k, ?_⟩, ?_⟩
    · rw [Written.lines_append_single, hlines, hwhole, if_neg e.lineBytes_ne_nil]
      simp
    · rw [List.take_of_length_le (by simp; omega), ← List.append_assoc, logBytes_append_last,
        List.nil_append, logBytes_append_break]

/-- An append leaves the first `k` bytes of what it writes: a line feed first when the log's last
line is not ended, then the event's line and a line feed. What reached the log of the event is
its line up to the `k`-th byte, less the repairing line feed. -/
theorem Written.Holds.append (h : ws.Holds ended last) (hframed : e.Framed) (k : Nat) :
    let fix := if last = [] then [] else [(10 : UInt8)]
    ∃ ended' last', (ws ++ [(e, e.lineBytes.take (k - fix.length))]).Holds ended' last' ∧
      logBytes ended last ++ (fix ++ e.lineBytes ++ [10]).take k = logBytes ended' last' := by
  intro fix
  by_cases hlast : last = []
  · subst hlast
    simpa [fix] using h.append_fresh hframed k
  · have hfix : fix = [10] := if_neg hlast
    rw [hfix]
    have hended : ws.Holds (ended ++ [last]) [] := ⟨h.prefixes, by simpa [hlast] using h.lines⟩
    cases k with
    | zero =>
      refine ⟨ended, last, ⟨?_, ?_⟩, by simp⟩
      · simpa using h.prefixes.append hframed 0
      · simpa [Written.lines_append_single] using h.lines
    | succ k =>
      obtain ⟨ended', last', hholds, hbytes⟩ := hended.append_fresh hframed k
      refine ⟨ended', last', by simpa using hholds, ?_⟩
      rw [List.singleton_append, List.cons_append, List.take_succ_cons, logBytes_append_break,
        ← hbytes, logBytes_append_last]
      rfl

end Holds

end RunJournal
