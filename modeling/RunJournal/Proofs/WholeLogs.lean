import RunJournal.Proofs.TornAppends
import RunJournal.Proofs.TraceCodec
/-!
# Logs of whole lines

Where no append is ever torn, a log holds whole lines only: each event's line followed by a line
feed (`wholeBytes`). Such a log reads back as exactly its events (`EventLog.readFrom_whole`), its
size is the length of those bytes, and it ends with a line feed, so the next append starts no line
of its own. When the numbers rise, the tail scan finds the last event's number
(`EventLog.lastSeq_whole`), whether the last line lies within the scanned window or not.

An append to a whole log leaves it as it was or one event longer (`EventLog.Whole.appendAt_run`),
and cutting it back to the size it had gives back the shorter log (`EventLog.Whole.truncate_run`).
Each write changes the disk at the log's place only and uses up scheduled faults from the front
(`World.Writes`); nothing else of the world moves.
-/

namespace RunJournal

open Disk

/-! ## The bytes of whole lines -/

/-- The bytes of a log holding the lines of `E`, each ended by a line feed. -/
def wholeBytes (E : List Event) : List UInt8 := logBytes (E.map Event.lineBytes) []

section Bytes

variable {E F : List Event}

@[simp] theorem wholeBytes_nil : wholeBytes [] = [] := rfl

theorem wholeBytes_append (E F : List Event) : wholeBytes (E ++ F) = wholeBytes E ++ wholeBytes F := by
  simp [wholeBytes, logBytes]

theorem wholeBytes_singleton (e : Event) : wholeBytes [e] = e.lineBytes ++ [10] := by
  simp [wholeBytes, logBytes]

theorem wholeBytes_getLast? (E : List Event) :
    (wholeBytes E).getLast? = none ∨ (wholeBytes E).getLast? = some 10 := by
  rcases List.eq_nil_or_concat E with rfl | ⟨E', e, rfl⟩
  · exact .inl rfl
  · right
    rw [List.concat_eq_append, wholeBytes_append, wholeBytes_singleton, ← List.append_assoc, List.getLast?_append_of_ne_nil _
      (by simp)]
    rfl

/-- Cutting a whole log to the size of a shorter one gives the shorter one back. -/
theorem take_wholeBytes_append (E F : List Event) :
    (wholeBytes (E ++ F)).take (wholeBytes E).length = wholeBytes E := by
  rw [wholeBytes_append, List.take_left]

theorem length_wholeBytes_cons (e : Event) (E : List Event) :
    (wholeBytes E).length + 2 ≤ (wholeBytes (e :: E)).length := by
  have hline : 1 ≤ e.lineBytes.length := List.length_pos_iff.mpr e.lineBytes_ne_nil
  rw [← List.singleton_append, wholeBytes_append, wholeBytes_singleton]
  simp only [List.length_append, List.length_singleton]
  omega

/-- A whole log determines how many of a list's events it holds: a longer prefix has more bytes. -/
theorem length_wholeBytes_take_lt (E : List Event) {j k : Nat} (hjk : j < k) (hk : k ≤ E.length) :
    (wholeBytes (E.take j)).length < (wholeBytes (E.take k)).length := by
  obtain ⟨d, rfl⟩ : ∃ d, k = j + (d + 1) := ⟨k - j - 1, by omega⟩
  rw [List.take_add, wholeBytes_append, List.length_append]
  have hne : (E.drop j).take (d + 1) ≠ [] := by
    simp only [ne_eq, List.take_eq_nil_iff, List.drop_eq_nil_iff, not_or]
    omega
  obtain ⟨x, xs, hx⟩ := List.exists_cons_of_ne_nil hne
  have hmore := length_wholeBytes_cons x xs
  rw [hx]
  omega

end Bytes

/-! ## Lines of events -/

namespace Event

theorem line_eq_close (e : Event) : ∃ front, e.line = front ++ "\x7d" := by
  have hobj : ∀ ms, Json.compact (.obj ms) = "\x7b" ++ Json.compactMembers ms ++ "\x7d" := by
    intro ms
    simp [Json.compact]
  exact ⟨_, hobj _⟩

/-- An event's line ends with its closing brace, never with a carriage return. -/
theorem lineBytes_getLast? (e : Event) : e.lineBytes.getLast? = some 125 := by
  obtain ⟨front, hfront⟩ := e.line_eq_close
  have hclose : "\x7d".toUTF8.toList = [125] := by
    rw [ByteArray.toList_eq_data]
    rfl
  rw [lineBytes, hfront, toUTF8_toList_append, hclose, List.getLast?_append_of_ne_nil _ (by simp)]
  rfl

end Event

section Lines

variable {E : List Event}

theorem mapM_decode_lineBytes (E : List Event) :
    (E.map Event.lineBytes).mapM (fun l => String.fromUTF8? ⟨l.toArray⟩) = some (E.map Event.line) := by
  induction E with
  | nil => rfl
  | cons e rest ih =>
    rw [List.map_cons, List.mapM_cons]
    have hdecode : String.fromUTF8? ⟨e.lineBytes.toArray⟩ = some e.line := decodeLine_lineBytes e
    simp [hdecode, ih]

theorem plain_lineBytes (hE : ∀ e ∈ E, e.Storable) : ∀ l ∈ E.map Event.lineBytes ++ [[]], 10 ∉ l := by
  intro l hl
  rcases List.mem_append.mp hl with hl | hl
  · obtain ⟨e, he, rfl⟩ := List.mem_map.mp hl
    exact (Json.Event.line_reads_back (hE e he)).1
  · rw [List.mem_singleton.mp hl]
    exact List.not_mem_nil

theorem textLines_wholeBytes (hE : ∀ e ∈ E, e.Storable) :
    textLines (wholeBytes E) = some (E.map Event.line) := by
  have hcr : ∀ l ∈ E.map Event.lineBytes ++ (if ([] : List UInt8) = [] then [] else [[]]),
      l.getLast? ≠ some 13 := by
    intro l hl
    simp only [if_true, List.append_nil, List.mem_map] at hl
    obtain ⟨e, -, rfl⟩ := hl
    rw [e.lineBytes_getLast?]
    decide
  rw [wholeBytes, textLines_logBytes_of_ends (plain_lineBytes hE) hcr, if_pos rfl, List.append_nil,
    mapM_decode_lineBytes]

theorem eventsFrom_lines (hE : ∀ e ∈ E, e.Storable) (k : Nat) :
    eventsFrom (E.map Event.line) k = E.filter fun e => k ≤ e.seq := by
  induction E with
  | nil => rfl
  | cons e rest ih =>
    rw [List.map_cons, eventsFrom_cons, ih fun e' he' => hE e' (List.mem_cons_of_mem _ he'),
      List.filter_cons]
    have hread := (Json.Event.line_reads_back (hE e List.mem_cons_self)).2
    by_cases hk : k ≤ e.seq
    · simp [eventsFrom, e.not_blankLine_line, hread, hk]
    · simp [eventsFrom, e.not_blankLine_line, hread, hk]

/-- A list whose every member gives a value is searched no further than its head. -/
theorem findSome?_of_forall {α β : Type} {l : List α} {g : α → Option β} {h : α → β}
    (hg : ∀ x ∈ l, g x = some (h x)) : l.findSome? g = l.head?.map h := by
  cases l with
  | nil => rfl
  | cons x xs => simp [hg x List.mem_cons_self]

theorem lastEventSeq?_whole (hE : ∀ e ∈ E, e.Storable) :
    lastEventSeq? (E.map Event.lineBytes ++ [[]]) = E.getLast?.map (·.seq) := by
  have hlines : lastEventSeq? (E.map Event.lineBytes) = E.getLast?.map (·.seq) := by
    unfold lastEventSeq?
    rw [← List.map_reverse, List.findSome?_map, findSome?_of_forall (h := fun e => e.seq),
      List.head?_reverse]
    intro e he
    have hread : Json.readBytes Read.event e.lineBytes = .ok e := by
      rw [Event.lineBytes, ← readText_eq_readBytes]
      exact (Json.Event.line_reads_back (hE e (List.mem_reverse.mp he))).2
    simp only [Function.comp_apply, e.lineBytes_not_blank, hread, Bool.false_eq_true, if_false]
  rw [lastEventSeq?_append, hlines]
  have hblank : lastEventSeq? [[]] = none := by decide
  rw [hblank, Option.none_or]

end Lines

/-! ## Writes and faults -/

namespace World

variable {w w₁ w₂ w₃ w' : World}

/-- From `w` to `w'` only the disk changed, and scheduled faults were used up from the front. -/
def Writes (w w' : World) : Prop := ∃ d k, w' = { w with disk := d, faults := w.faults.drop k }

theorem Writes.refl (w : World) : w.Writes w := ⟨w.disk, 0, by cases w; rfl⟩

theorem Writes.trans (h₁₂ : w₁.Writes w₂) (h₂₃ : w₂.Writes w₃) : w₁.Writes w₃ := by
  obtain ⟨d, k, rfl⟩ := h₁₂
  obtain ⟨d', k', rfl⟩ := h₂₃
  exact ⟨d', k + k', by simp [List.drop_drop]⟩

theorem Writes.advance (w : World) : w.Writes w.advance := ⟨w.disk, 1, by cases w; simp [World.advance, List.drop_one]⟩

theorem Writes.setDisk (w : World) (d : Disk) : w.Writes { w with disk := d } := ⟨d, 0, by simp⟩

theorem Writes.cwd (h : w.Writes w') : w'.cwd = w.cwd := by
  obtain ⟨d, k, rfl⟩ := h
  rfl

theorem Writes.tails (h : w.Writes w') : w'.tails = w.tails := by
  obtain ⟨d, k, rfl⟩ := h
  rfl

theorem Writes.clock (h : w.Writes w') : w'.clock = w.clock := by
  obtain ⟨d, k, rfl⟩ := h
  rfl

/-- No scheduled write is torn: each fails whole or goes through. -/
def NoTears (w : World) : Prop := ∀ f ∈ w.faults, ∀ n, f ≠ some (.tear n)

theorem NoTears.writes (h : w.NoTears) (hw : w.Writes w') : w'.NoTears := by
  obtain ⟨d, k, rfl⟩ := hw
  exact fun f hf => h f (List.mem_of_mem_drop hf)

theorem NoTears.pending (h : w.NoTears) : w.pending = none ∨ w.pending = some .fail := by
  unfold World.pending
  cases hf : w.faults with
  | nil => exact .inl rfl
  | cons f rest =>
    have hno := h f (by simp [hf])
    rcases f with _ | _ | n
    · exact .inl rfl
    · exact .inr rfl
    · exact absurd rfl (hno n)

end World

/-! ## Reading a whole log -/

namespace EventLog

variable {log : EventLog} {w : World} {E : List Event}

/-- What a log shows its readers: the bytes of whole lines in a file its owner may read, or no
file and no events. -/
def Shows (log : EventLog) (w : World) (E : List Event) : Prop :=
  (∃ m, w.disk.metadata w.cwd log.path = .ok (.file (wholeBytes E) m) ∧ canRead m) ∨
    (w.disk.metadata w.cwd log.path = .error .notFound ∧ E = [])

theorem lines_run_of_notFound (h : w.disk.metadata w.cwd log.path = .error .notFound) :
    log.lines.run.run w = (.ok none, w) := by
  have hex : w.disk.exists_ w.cwd log.path = false := by simp [exists_, h, Except.toBool]
  unfold lines present
  rw [WorldE.run_bind, onDisk_liftM_run]
  simp only [hex]
  rfl

theorem bytes?_run_of_notFound (h : w.disk.metadata w.cwd log.path = .error .notFound) :
    log.bytes?.run.run w = (.ok none, w) := by
  have hread : w.disk.read w.cwd log.path = .error .notFound := by
    simp [Disk.read, h, bind, Except.bind]
  unfold bytes?
  rw [WorldE.run_bind, onDisk_lift_run, hread]
  rfl

/-- Reading a whole log of storable events from `k` gives its events numbered `k` or more. -/
theorem readFrom_whole (h : log.Shows w E) (hE : ∀ e ∈ E, e.Storable) (k : Nat) :
    (log.readFrom k).run.run w = (.ok (E.filter fun e => k ≤ e.seq), w) := by
  unfold readFrom
  rw [WorldE.run_bind]
  rcases h with ⟨m, hmeta, hm⟩ | ⟨hmeta, rfl⟩
  · obtain ⟨P, hloc, hget⟩ := metadata_eq_ok_iff.mp hmeta
    rw [lines_run_file hloc hget hm, textLines_wholeBytes hE]
    show (Except.ok (eventsFrom (E.map Event.line) k), w) = _
    rw [eventsFrom_lines hE]
  · rw [lines_run_of_notFound hmeta]
    rfl

theorem readAll_whole (h : log.Shows w E) (hE : ∀ e ∈ E, e.Storable) (hpos : ∀ e ∈ E, 1 ≤ e.seq) :
    log.readAll.run.run w = (.ok E, w) := by
  rw [readAll, readFrom_whole h hE, List.filter_eq_self.mpr fun e he => by simpa using hpos e he]

theorem byteLen_whole (h : log.Shows w E) : log.byteLen.run.run w = (.ok (wholeBytes E).length, w) := by
  unfold byteLen
  rcases h with ⟨m, hmeta, -⟩ | ⟨hmeta, rfl⟩
  · rw [WorldE.run_bind, onDisk_lift_run, hmeta]
    rfl
  · rw [WorldE.run_bind, onDisk_lift_run, hmeta]
    rfl

theorem lastByte_whole (h : log.Shows w E) : log.lastByte.run.run w = (.ok (wholeBytes E).getLast?, w) := by
  unfold lastByte
  rw [WorldE.run_bind]
  rcases h with ⟨m, hmeta, hm⟩ | ⟨hmeta, rfl⟩
  · obtain ⟨P, hloc, hget⟩ := metadata_eq_ok_iff.mp hmeta
    rw [bytes?_run_file hloc hget hm]
    rfl
  · rw [bytes?_run_of_notFound hmeta]
    rfl

theorem splitLines_wholeBytes (hE : ∀ e ∈ E, e.Storable) :
    splitLines (wholeBytes E) = E.map Event.lineBytes ++ [[]] :=
  splitLines_logBytes (plain_lineBytes hE)

/-- The tail scan of a whole log whose numbers rise gives the last event's number, zero without
one: the window either holds the last line whole or misses every line, and then the whole log is
read. -/
theorem lastSeq_whole (h : log.Shows w E) (hE : ∀ e ∈ E, e.Storable)
    (hsorted : (E.map (·.seq)).Pairwise (· ≤ ·)) (hpos : ∀ e ∈ E, 1 ≤ e.seq) :
    log.lastSeq.run.run w = (.ok ((E.getLast?.map (·.seq)).getD 0), w) := by
  unfold lastSeq
  rw [WorldE.run_bind]
  rcases h with ⟨m, hmeta, hm⟩ | ⟨hmeta, rfl⟩
  · obtain ⟨P, hloc, hget⟩ := metadata_eq_ok_iff.mp hmeta
    rw [bytes?_run_file hloc hget hm]
    obtain ⟨front, hfront⟩ : ∃ front, E.map Event.lineBytes ++ [[]] = front ++ tailPieces (wholeBytes E) :=
      tailPieces_logBytes (plain_lineBytes hE)
    have hall := lastEventSeq?_whole hE
    rw [hfront, lastEventSeq?_append] at hall
    dsimp only
    cases hfound : lastEventSeq? (tailPieces (wholeBytes E)) with
    | some s =>
      rw [hfound, Option.some_or] at hall
      rw [← hall]
      rfl
    | none =>
      dsimp only
      by_cases hlong : (wholeBytes E).length > tailWindow
      · rw [if_pos hlong, WorldE.run_bind, readAll_whole (.inl ⟨m, hmeta, hm⟩) hE hpos]
        show (Except.ok ((E.map (·.seq)).foldl max 0), w) = _
        rw [foldl_max_of_sorted hsorted, List.getLast?_map]
        cases E.getLast? <;> rfl
      · -- the window is the whole log, so the log holds no line at all
        have hpieces : tailPieces (wholeBytes E) = E.map Event.lineBytes ++ [[]] := by
          rw [tailPieces_eq, if_neg hlong, splitLines_wholeBytes hE]
        rw [hpieces, lastEventSeq?_whole hE] at hfound
        rw [if_neg hlong, hfound]
        rfl
  · rw [bytes?_run_of_notFound hmeta]
    rfl

theorem tail_whole (h : log.Shows w E) (hE : ∀ e ∈ E, e.Storable)
    (hsorted : (E.map (·.seq)).Pairwise (· ≤ ·)) (hpos : ∀ e ∈ E, 1 ≤ e.seq) :
    log.tail.run.run w = (.ok ⟨(wholeBytes E).length, (E.getLast?.map (·.seq)).getD 0⟩, w) := by
  unfold tail
  rw [WorldE.run_bind, byteLen_whole h]
  dsimp only
  rw [WorldE.run_bind, lastSeq_whole h hE hsorted hpos]
  rfl

/-! ## Writing a whole log -/

/-- A log whose directory is there, whose file sits at `P` (or is not made yet, holding nothing),
and whose file holds the whole lines of `E`, with bits that let its owner read and write it. -/
structure Whole (log : EventLog) (d : Disk) (cwd P : List String) (E : List Event) : Prop where
  path : d.locate cwd log.path = .ok P
  dirPath : d.locate cwd log.dir = .ok P.dropLast
  dir : ∃ m, d.get? P.dropLast = some (.dir m)
  file : (d.get? P = none ∧ E = []) ∨
    ∃ m, d.get? P = some (.file (wholeBytes E) m) ∧ canRead m ∧ canWrite m

section Whole

variable {d : Disk} {cwd P : List String}

theorem Whole.shows (h : log.Whole w.disk w.cwd P E) : log.Shows w E := by
  rcases h.file with ⟨hnone, rfl⟩ | ⟨m, hfile, hm, -⟩
  · exact .inr ⟨metadata_of_get?_none h.path hnone, rfl⟩
  · exact .inl ⟨m, metadata_of_get? h.path hfile, hm⟩

theorem Whole.path_ne_nil (h : log.Whole d cwd P E) : P ≠ [] := by
  rintro rfl
  have hroot : d.get? [] = some (.dir Disk.dirMode) := rfl
  rcases h.file with ⟨hnone, -⟩ | ⟨m, hfile, -⟩
  · rw [hroot] at hnone
    cases hnone
  · rw [hroot] at hfile
    cases hfile

theorem Whole.put (h : log.Whole d cwd P E) (F : List Event) {m : Nat}
    (hm : canRead m ∧ canWrite m) : log.Whole (d.put P (.file (wholeBytes F) m)) cwd P F := by
  have hnodir : ∀ m, d.get? P ≠ some (.dir m) := by
    intro m' hdir
    rcases h.file with ⟨hnone, -⟩ | ⟨m, hfile, -⟩
    · rw [hnone] at hdir
      cases hdir
    · rw [hfile] at hdir
      cases hdir
  have hkeep : KeepsDirs d (d.put P (.file (wholeBytes F) m)) := keepsDirs_put _ hnodir
  have hparent : P.dropLast ≠ P := by
    intro heq
    have hlen := congrArg List.length heq
    have hpos : 0 < P.length := List.length_pos_iff.mpr h.path_ne_nil
    rw [List.length_dropLast] at hlen
    omega
  refine ⟨walk_keepsDirs hkeep h.path, walk_keepsDirs hkeep h.dirPath, ?_, .inr ⟨m, ?_, hm⟩⟩
  · obtain ⟨md, hdir⟩ := h.dir
    exact ⟨md, by rw [get?_put_ne _ hparent, hdir]⟩
  · rw [get?_put_self _ h.path_ne_nil]

/-- Appending to the log's file adds at the end of its bytes, making it when missing; only a new
file in a directory its owner may not change is refused. -/
theorem Whole.append_disk (h : log.Whole d cwd P E) (bytes : List UInt8) :
    (∃ m, d.append cwd log.path bytes = .ok (d.put P (.file (wholeBytes E ++ bytes) m)) ∧
        canRead m ∧ canWrite m) ∨
      (E = [] ∧ d.append cwd log.path bytes = .error .permissionDenied) := by
  rcases h.file with ⟨hnone, rfl⟩ | ⟨m, hfile, hm, hw⟩
  · obtain ⟨md, hdir⟩ := h.dir
    cases hmd : canChange md
    · exact .inr ⟨rfl, append_of_none_denied bytes h.path hnone hdir hmd⟩
    · exact .inl ⟨fileMode, append_of_none bytes h.path hnone hdir hmd, canRead_fileMode,
        canWrite_fileMode⟩
  · exact .inl ⟨m, append_of_file bytes h.path hfile hw, hm, hw⟩

theorem Whole.append_disk_of_canChange (h : log.Whole d cwd P E)
    (hdir : ∀ m, d.get? P.dropLast = some (.dir m) → canChange m) (bytes : List UInt8) :
    ∃ m, d.append cwd log.path bytes = .ok (d.put P (.file (wholeBytes E ++ bytes) m)) ∧
      canRead m ∧ canWrite m := by
  rcases h.file with ⟨hnone, rfl⟩ | ⟨m, hfile, hm, hw⟩
  · obtain ⟨md, hdm⟩ := h.dir
    exact ⟨fileMode, append_of_none bytes h.path hnone hdm (hdir md hdm), canRead_fileMode,
      canWrite_fileMode⟩
  · exact ⟨m, append_of_file bytes h.path hfile hw, hm, hw⟩

theorem wholeBytes_getLast?_any (E : List Event) :
    (wholeBytes E).getLast?.any (· ≠ 10) = false := by
  rcases wholeBytes_getLast? E with h | h <;> rw [h] <;> rfl

/-- An append to a whole log, where no write is torn, leaves the log as it was, failing, or one
event longer; only an append that leaves the event succeeds. Nothing but the disk at the log's
place and the fault schedule changes. -/
theorem Whole.appendAt_run (h : log.Whole w.disk w.cwd P E) (hnt : w.NoTears) (e : Event)
    (seq : Nat) :
    let r := (log.appendAt e seq).run.run w
    w.Writes r.2 ∧
      ((r.2.disk = w.disk ∧ ∃ err, r.1 = .error err) ∨
        (∃ m, r.2.disk = w.disk.put P (.file (wholeBytes (E ++ [{ e with seq }])) m) ∧
            canRead m ∧ canWrite m) ∧
          (r.1 = .ok { e with seq } ∨ r.1 = .error .noSpace)) := by
  intro r
  have hr : r = (log.appendAt e seq).run.run w := rfl
  unfold appendAt at hr
  rw [WorldE.run_bind, lastByte_whole h.shows] at hr
  dsimp only at hr
  rw [wholeBytes_getLast?_any, appendLine_bytes, WorldE.run_bind] at hr
  generalize ({ e with seq } : Event) = ev at hr ⊢
  simp only [Bool.false_eq_true, if_false, List.nil_append] at hr
  obtain ⟨md, hdir⟩ := h.dir
  unfold write at hr
  rw [WorldE.run_bind] at hr
  rcases hnt.pending with hp | hp
  · rw [changeDisk_run_same hp (createDirAll_of_dir h.dirPath hdir)] at hr
    dsimp only at hr
    rw [WorldE.run_bind] at hr
    rcases (hnt.writes (World.Writes.advance w)).pending with hp₁ | hp₁
    · rw [appendFile_run_none hp₁] at hr
      rcases h.append_disk (ev.lineBytes ++ [10]) with ⟨m, happ, hm⟩ | ⟨-, hdenied⟩
      swap
      · rw [applyDisk_run_error (w := w.advance.advance) hdenied] at hr
        rw [hr]
        exact ⟨(World.Writes.advance w).trans (World.Writes.advance _), .inl ⟨rfl, _, rfl⟩⟩
      rw [applyDisk_run_ok (w := w.advance.advance) happ] at hr
      dsimp only at hr
      rw [ioCheck_run] at hr
      have hbytes : wholeBytes E ++ (ev.lineBytes ++ [10]) = wholeBytes (E ++ [ev]) := by
        rw [wholeBytes_append, wholeBytes_singleton]
      rw [hbytes] at hr
      have hwrites : w.Writes { w.advance.advance with
          disk := w.disk.put P (.file (wholeBytes (E ++ [ev])) m) }.advance :=
        (World.Writes.advance w).trans ((World.Writes.advance _).trans
          ((World.Writes.setDisk _ _).trans (World.Writes.advance _)))
      by_cases hp₂ : (World.pending { w.advance.advance with
          disk := w.disk.put P (.file (wholeBytes (E ++ [ev])) m) }).isSome
      · simp only [hp₂, if_true] at hr
        rw [hr]
        exact ⟨hwrites, .inr ⟨⟨m, rfl, hm⟩, .inr rfl⟩⟩
      · simp only [hp₂, Bool.false_eq_true, if_false] at hr
        rw [hr]
        exact ⟨hwrites, .inr ⟨⟨m, rfl, hm⟩, .inl rfl⟩⟩
    · rw [appendFile_run_fail hp₁] at hr
      rw [hr]
      exact ⟨(World.Writes.advance w).trans (World.Writes.advance _), .inl ⟨rfl, _, rfl⟩⟩
  · rw [changeDisk_run, if_pos (by simp [hp])] at hr
    rw [hr]
    exact ⟨World.Writes.advance w, .inl ⟨rfl, _, rfl⟩⟩

/-- With nothing scheduled and a directory its owner may change, an append to a whole log returns
the event with its number, and the log holds it. -/
theorem Whole.appendAt_ok (h : log.Whole w.disk w.cwd P E) (hfaults : w.faults = [])
    (hdir : ∀ m, w.disk.get? P.dropLast = some (.dir m) → canChange m) (e : Event) (seq : Nat) :
    ∃ m, (log.appendAt e seq).run.run w =
        (.ok { e with seq }, { w with disk := w.disk.put P (.file (wholeBytes (E ++ [{ e with seq }])) m) }) ∧
      canRead m ∧ canWrite m := by
  have hp := World.pending_of_faults_nil hfaults
  have hadv := World.advance_of_faults_nil hfaults
  obtain ⟨md, hdm⟩ := h.dir
  obtain ⟨m, happ, hm⟩ := h.append_disk_of_canChange hdir ({ e with seq }.lineBytes ++ [10])
  refine ⟨m, ?_, hm⟩
  unfold appendAt
  rw [WorldE.run_bind, lastByte_whole h.shows]
  dsimp only
  rw [wholeBytes_getLast?_any, appendLine_bytes, WorldE.run_bind]
  simp only [Bool.false_eq_true, if_false, List.nil_append]
  unfold write
  rw [WorldE.run_bind, changeDisk_run_same hp (createDirAll_of_dir h.dirPath hdm), hadv]
  dsimp only
  rw [WorldE.run_bind, appendFile_run_none hp, hadv, applyDisk_run_ok happ]
  dsimp only
  rw [ioCheck_run, wholeBytes_append, wholeBytes_singleton]
  simp only [World.pending, World.advance, hfaults, List.head?_nil, Option.join_none,
    Option.isSome_none, Bool.false_eq_true, if_false, List.tail_nil]
  rfl

/-- Cutting a whole log back to the bytes of its first events leaves it as it was or holding just
those events, and changes nothing else. -/
theorem Whole.truncate_run (h : log.Whole w.disk w.cwd P (E ++ F)) :
    let r := (log.truncate (wholeBytes E).length).run.run w
    w.Writes r.2 ∧ (r.2.disk = w.disk ∨
      ∃ m, r.2.disk = w.disk.put P (.file (wholeBytes E) m) ∧ canRead m ∧ canWrite m) := by
  intro r
  have hr : r = (log.truncate (wholeBytes E).length).run.run w := rfl
  unfold truncate at hr
  rw [WorldE.run_bind, changeDisk_run] at hr
  by_cases hp : w.pending.isSome
  · simp only [hp, if_true] at hr
    rw [hr]
    exact ⟨World.Writes.advance w, .inl rfl⟩
  simp only [hp, Bool.false_eq_true, if_false, applyDisk_run] at hr
  rcases h.file with ⟨hnone, -⟩ | ⟨m, hfile, hm, hw⟩
  · have hset : w.advance.disk.setLen w.advance.cwd log.path (wholeBytes E).length =
        .error .notFound := setLen_of_none _ h.path hnone
    rw [hset] at hr
    rw [hr]
    exact ⟨World.Writes.advance w, .inl rfl⟩
  · have hle : (wholeBytes E).length ≤ (wholeBytes (E ++ F)).length := by
      rw [wholeBytes_append, List.length_append]
      omega
    have hset : w.advance.disk.setLen w.advance.cwd log.path (wholeBytes E).length =
        .ok (w.disk.put P (.file (wholeBytes E) m)) := by
      rw [show w.advance.disk = w.disk from rfl, show w.advance.cwd = w.cwd from rfl,
        setLen_of_file _ h.path hfile hw,
        take_wholeBytes_append, Nat.sub_eq_zero_of_le hle, List.replicate_zero, List.append_nil]
    rw [hset] at hr
    dsimp only at hr
    rw [ioCheck_run] at hr
    have hwrites : w.Writes { w.advance with disk := w.disk.put P (.file (wholeBytes E) m) }.advance :=
      (World.Writes.advance w).trans ((World.Writes.setDisk _ _).trans (World.Writes.advance _))
    by_cases hp₁ : (World.pending { w.advance with
        disk := w.disk.put P (.file (wholeBytes E) m) }).isSome
    · simp only [hp₁, if_true] at hr
      rw [hr]
      exact ⟨hwrites, .inr ⟨m, rfl, hm, hw⟩⟩
    · simp only [hp₁, Bool.false_eq_true, if_false] at hr
      rw [hr]
      exact ⟨hwrites, .inr ⟨m, rfl, hm, hw⟩⟩

end Whole

end EventLog

end RunJournal
