import RunJournal.Proofs.Disk
import RunJournal.Proofs.World
import RunJournal.Proofs.LogText
import Mathlib.Data.List.Forall2
/-!
# Torn appends and what the log reads back

An append may stop after any byte of its line: the disk fills, or the process dies, and later
appends carry on. Each append first looks at the log's last byte and, when the line before it was
left open, starts with a line feed of its own, so a torn line never runs into the next one.

`EventLog.Holds` ties a log in a world to the record `Written` of what each append left: its file
holds exactly those pieces as lines (`logBytes`). Appending keeps it (`Holds.appendAt_run`, one
step, and `Holds.appendAll_run`, a whole run), and the readers are computed from it: reading from
`k` gives the events whose line was left whole, in order, with sequence number `k` or more, except
that one line cut inside a character makes the whole file unreadable as text; the tail scan of the
last 64 KiB gives the last of those events, the full scan only when the window holds none.
-/

namespace RunJournal

open Disk

namespace EventLog

section Reads

variable {log : EventLog} {w : World} {p : List String} {b : List UInt8} {m : Nat}

theorem lines_run_none (hloc : w.disk.locate w.cwd log.path = .ok p) (hget : w.disk.get? p = none) :
    log.lines.run.run w = (.ok none, w) := by
  have hmeta := metadata_of_get?_none hloc hget
  have hex : w.disk.exists_ w.cwd log.path = false := by simp [exists_, hmeta, Except.toBool]
  unfold lines present
  rw [WorldE.run_bind, onDisk_liftM_run]
  simp only [hex]
  rfl

theorem lines_run_file (hloc : w.disk.locate w.cwd log.path = .ok p)
    (hget : w.disk.get? p = some (.file b m)) (hm : canRead m) :
    log.lines.run.run w = (match textLines b with
      | some ls => .ok (some ls)
      | none => .error .invalidUtf8, w) := by
  have hex : w.disk.exists_ w.cwd log.path = true := by
    simp [exists_, metadata_of_get? hloc hget, Except.toBool]
  have hread := read_of_file hloc hget hm
  unfold lines present
  rw [WorldE.run_bind, onDisk_liftM_run]
  simp only [hex]
  show (ExceptT.lift (onDisk fun d cwd => d.read cwd log.path) >>= _).run.run w = _
  rw [WorldE.run_bind, onDisk_lift_run, hread]
  cases htext : textLines b <;> simp [htext] <;> rfl

theorem bytes?_run_none (hloc : w.disk.locate w.cwd log.path = .ok p)
    (hget : w.disk.get? p = none) : log.bytes?.run.run w = (.ok none, w) := by
  unfold bytes?
  rw [WorldE.run_bind, onDisk_lift_run, read_of_none hloc hget]
  rfl

theorem bytes?_run_file (hloc : w.disk.locate w.cwd log.path = .ok p)
    (hget : w.disk.get? p = some (.file b m)) (hm : canRead m) :
    log.bytes?.run.run w = (.ok (some b), w) := by
  unfold bytes?
  rw [WorldE.run_bind, onDisk_lift_run, read_of_file hloc hget hm]
  rfl

end Reads

/-- A log in a world holds what appends left: its directory is there, its file sits at `p` one name
below it (or is not made yet) with bits that let its owner read and write it, and the file's bytes
are the lines the appends left. -/
structure Holds (log : EventLog) (w : World) (p : List String) (ws : Written)
    (ended : List (List UInt8)) (last : List UInt8) : Prop where
  path : w.disk.locate w.cwd log.path = .ok p
  dirPath : w.disk.locate w.cwd log.dir = .ok p.dropLast
  dir : ∃ m, w.disk.get? p.dropLast = some (.dir m)
  file : (w.disk.get? p = none ∧ ended = [] ∧ last = [])
    ∨ ∃ m, w.disk.get? p = some (.file (logBytes ended last) m) ∧ canRead m ∧ canWrite m
  written : ws.Holds ended last

section Readers

variable {log : EventLog} {w : World} {p : List String} {ws : Written}
  {ended : List (List UInt8)} {last : List UInt8}

/-- Reading a log that holds what appends left gives the events written whole, unless a line cut
short ends inside a character. -/
theorem Holds.readFrom_run (h : log.Holds w p ws ended last) (k : Nat) :
    (log.readFrom k).run.run w
      = (if ws.Decodable then .ok (ws.complete k) else .error .invalidUtf8, w) := by
  unfold readFrom
  rw [WorldE.run_bind]
  rcases h.file with ⟨hnone, rfl, rfl⟩ | ⟨m, hfile, hm, hw⟩
  · have hlines : ws.lines = [] := by simpa using h.written.lines
    have hdec := Written.decodable_of_lines_nil hlines
    obtain ⟨strs, hstrs, hevents⟩ := Written.eventsFrom_lines h.written.prefixes hdec k
    rw [hlines] at hstrs
    cases hstrs
    rw [lines_run_none h.path hnone, if_pos hdec, ← hevents]
    rfl
  · rw [lines_run_file h.path hfile hm, h.written.textLines]
    by_cases hdec : ws.Decodable
    · obtain ⟨strs, hstrs, hevents⟩ := Written.eventsFrom_lines h.written.prefixes hdec k
      rw [hstrs, if_pos hdec, ← hevents]
      rfl
    · rw [Written.lines_mapM_none hdec, if_neg hdec]

theorem Holds.lastByte_run (h : log.Holds w p ws ended last) :
    log.lastByte.run.run w = (.ok (logBytes ended last).getLast?, w) := by
  unfold lastByte
  rw [WorldE.run_bind]
  rcases h.file with ⟨hnone, rfl, rfl⟩ | ⟨m, hfile, hm, hw⟩
  · rw [bytes?_run_none h.path hnone]
    rfl
  · rw [bytes?_run_file h.path hfile hm]
    rfl

/-- The largest sequence number among the events written whole, read from 1 on, is that of the
last of them when sequence numbers never fall. -/
theorem lastSeq_fold (hsorted : ((ws.complete 0).map (·.seq)).Pairwise (· ≤ ·)) :
    ((ws.complete 1).map (·.seq)).foldl max 0 = ((ws.complete 0).getLast?.map (·.seq)).getD 0 := by
  have hmap : ((ws.complete 0).filter fun e => 1 ≤ e.seq).map (·.seq)
      = ((ws.complete 0).map (·.seq)).filter (1 ≤ ·) := by
    rw [List.filter_map]
    rfl
  rw [Written.complete_eq_filter ws 1, hmap, foldl_max_filter_pos, foldl_max_of_sorted hsorted,
    List.getLast?_map]
  cases (ws.complete 0).getLast? <;> simp

/-- The tail scan gives the sequence number of the last event written whole (zero without one),
or fails as reading the whole log does. -/
theorem Holds.lastSeq_run (h : log.Holds w p ws ended last)
    (hsorted : ((ws.complete 0).map (·.seq)).Pairwise (· ≤ ·)) :
    ∃ r, log.lastSeq.run.run w = (r, w) ∧
      (r = .ok (((ws.complete 0).getLast?.map (·.seq)).getD 0)
        ∨ (r = .error .invalidUtf8 ∧ ¬ ws.Decodable)) := by
  unfold lastSeq
  rw [WorldE.run_bind]
  rcases h.file with ⟨hnone, rfl, rfl⟩ | ⟨m, hfile, hm, hw⟩
  · have hlines : ws.lines = [] := by simpa using h.written.lines
    rw [bytes?_run_none h.path hnone, Written.complete_eq_nil_of_lines_nil hlines]
    exact ⟨_, rfl, .inl rfl⟩
  · rw [bytes?_run_file h.path hfile hm]
    cases hfound : lastEventSeq? (tailPieces (logBytes ended last)) with
    | some s =>
      refine ⟨.ok s, ?_, .inl ?_⟩
      · simp only [hfound]
        rfl
      · rw [h.written.lastEventSeq?_tail hfound]
        rfl
    | none =>
      by_cases hlong : (logBytes ended last).length > tailWindow
      · have hall := h.readFrom_run 1
        by_cases hdec : ws.Decodable
        · refine ⟨.ok (((ws.complete 1).map (·.seq)).foldl max 0), ?_, .inl (by rw [lastSeq_fold hsorted])⟩
          simp only [hfound, hlong, if_true]
          rw [WorldE.run_bind, readAll, hall, if_pos hdec]
          rfl
        · refine ⟨.error .invalidUtf8, ?_, .inr ⟨rfl, hdec⟩⟩
          simp only [hfound, hlong, if_true]
          rw [WorldE.run_bind, readAll, hall, if_neg hdec]
      · have hnone := h.written.lastEventSeq?_short (by omega)
        rw [hfound] at hnone
        refine ⟨.ok 0, ?_, .inl (by rw [← hnone]; rfl)⟩
        simp only [hfound, hlong, if_false]
        rfl

end Readers


section Frame

variable {log : EventLog} {w w' : World} {p : List String} {ws ws' : Written}
  {ended ended' : List (List UInt8)} {last last' : List UInt8}

theorem Holds.path_ne_nil (h : log.Holds w p ws ended last) : p ≠ [] := by
  rintro rfl
  have hroot : w.disk.get? [] = some (.dir Disk.dirMode) := rfl
  rcases h.file with ⟨hnone, -⟩ | ⟨m, hfile, -⟩
  · rw [hroot] at hnone
    cases hnone
  · rw [hroot] at hfile
    cases hfile

/-- Only the disk and the working directory matter to where a log is and what it holds. -/
theorem Holds.of_same (h : log.Holds w p ws ended last) (hdisk : w'.disk = w.disk)
    (hcwd : w'.cwd = w.cwd) (hws : ws'.Holds ended last) : log.Holds w' p ws' ended last := by
  refine ⟨?_, ?_, ?_, ?_, hws⟩
  · rw [hdisk, hcwd]
    exact h.path
  · rw [hdisk, hcwd]
    exact h.dirPath
  · rw [hdisk]
    exact h.dir
  · rw [hdisk]
    exact h.file

theorem Holds.of_put (h : log.Holds w p ws ended last) {m : Nat}
    (hdisk : w'.disk = w.disk.put p (.file (logBytes ended' last') m)) (hm : canRead m ∧ canWrite m)
    (hcwd : w'.cwd = w.cwd) (hws : ws'.Holds ended' last') : log.Holds w' p ws' ended' last' := by
  have hnodir : ∀ m, w.disk.get? p ≠ some (.dir m) := by
    intro m' hdir
    rcases h.file with ⟨hnone, -⟩ | ⟨m, hfile, -⟩
    · rw [hnone] at hdir
      cases hdir
    · rw [hfile] at hdir
      cases hdir
  have hkeep : KeepsDirs w.disk w'.disk := hdisk ▸ keepsDirs_put _ hnodir
  have hparent : p.dropLast ≠ p := by
    intro heq
    have hlen := congrArg List.length heq
    have hpos : 0 < p.length := List.length_pos_iff.mpr h.path_ne_nil
    rw [List.length_dropLast] at hlen
    omega
  refine ⟨?_, ?_, ?_, .inr ⟨m, ?_, hm⟩, hws⟩
  · rw [hcwd]
    exact walk_keepsDirs hkeep h.path
  · rw [hcwd]
    exact walk_keepsDirs hkeep h.dirPath
  · obtain ⟨md, hdir⟩ := h.dir
    exact ⟨md, by rw [hdisk, get?_put_ne _ hparent, hdir]⟩
  · rw [hdisk, get?_put_self _ h.path_ne_nil]

end Frame

section Append

variable {log : EventLog} {w : World} {p : List String} {ws : Written}
  {ended : List (List UInt8)} {last : List UInt8}

theorem appendLine_bytes (ev : Event) (c : Bool) :
    (if c = true then "\n" ++ (ev.line ++ "\n") else ev.line ++ "\n").toUTF8.toList
      = (if c = true then [10] else []) ++ ev.lineBytes ++ [10] := by
  cases c
  · show (ev.line ++ "\n").toUTF8.toList = [] ++ ev.lineBytes ++ [10]
    rw [toUTF8_toList_append, toUTF8_toList_newline]
    rfl
  · show ("\n" ++ (ev.line ++ "\n")).toUTF8.toList = [10] ++ ev.lineBytes ++ [10]
    rw [toUTF8_toList_append, toUTF8_toList_append, toUTF8_toList_newline]
    rfl

/-- Appending to the log's file adds at the end of what it holds, making it when missing; only a
new file in a directory its owner may not change is refused. -/
theorem Holds.append_disk (h : log.Holds w p ws ended last) (bytes : List UInt8) :
    (∃ m, w.disk.append w.cwd log.path bytes
        = .ok (w.disk.put p (.file (logBytes ended last ++ bytes) m)) ∧ canRead m ∧ canWrite m) ∨
      w.disk.append w.cwd log.path bytes = .error .permissionDenied := by
  rcases h.file with ⟨hnone, rfl, rfl⟩ | ⟨m, hfile, hm, hw⟩
  · obtain ⟨md, hdir⟩ := h.dir
    cases hmd : canChange md
    · exact .inr (append_of_none_denied bytes h.path hnone hdir hmd)
    · exact .inl ⟨fileMode, append_of_none bytes h.path hnone hdir hmd, canRead_fileMode,
        canWrite_fileMode⟩
  · exact .inl ⟨m, append_of_file bytes h.path hfile hw, hm, hw⟩

theorem Holds.createDirAll (h : log.Holds w p ws ended last) :
    w.disk.createDirAll w.cwd log.dir = .ok w.disk := by
  obtain ⟨md, hdir⟩ := h.dir
  exact createDirAll_of_dir h.dirPath hdir

/-- What a write leaves: nothing, or a prefix of its bytes at the end of the log's file; only a
write that leaves all of them succeeds. -/
theorem Holds.write_run (h : log.Holds w p ws ended last) (X : List UInt8) :
    ((log.write X).run.run w).2.cwd = w.cwd ∧
      ((((log.write X).run.run w).2.disk = w.disk ∧ ((log.write X).run.run w).1 ≠ .ok ())
        ∨ ∃ k m, ((log.write X).run.run w).2.disk
            = w.disk.put p (.file (logBytes ended last ++ X.take k) m) ∧ (canRead m ∧ canWrite m) ∧
          (((log.write X).run.run w).1 = .ok () → k = X.length)) := by
  unfold write
  rw [WorldE.run_bind]
  cases hpend : w.pending with
  | some f =>
    rw [changeDisk_run, if_pos (by simp [hpend])]
    exact ⟨rfl, .inl ⟨rfl, by simp⟩⟩
  | none =>
    rw [changeDisk_run_same hpend h.createDirAll]
    dsimp only
    rw [WorldE.run_bind]
    cases hpend1 : w.advance.pending with
    | none =>
      rw [appendFile_run_none hpend1]
      rcases h.append_disk X with ⟨m, happ, hm⟩ | hdenied
      · rw [applyDisk_run_ok (w := w.advance.advance) happ]
        dsimp only
        rw [ioCheck_run]
        exact ⟨rfl, .inr ⟨X.length, m, by simp, hm, fun _ => rfl⟩⟩
      · rw [applyDisk_run_error (w := w.advance.advance) hdenied]
        exact ⟨rfl, .inl ⟨rfl, by simp⟩⟩
    | some f =>
      cases f with
      | fail =>
        rw [appendFile_run_fail hpend1]
        exact ⟨rfl, .inl ⟨rfl, by simp⟩⟩
      | tear n =>
        rw [appendFile_run_tear hpend1]
        rcases h.append_disk (X.take n) with ⟨m, happ, hm⟩ | hdenied
        · rw [applyDisk_run_ok (w := w.advance.advance) happ]
          exact ⟨rfl, .inr ⟨n, m, rfl, hm, by simp⟩⟩
        · rw [applyDisk_run_error (w := w.advance.advance) hdenied]
          exact ⟨rfl, .inl ⟨rfl, by simp⟩⟩

theorem Holds.appendAt_run (h : log.Holds w p ws ended last) (e : Event) (seq : Nat)
    (hframed : ({ e with seq } : Event).Framed) :
    ∃ j ended' last', log.Holds ((log.appendAt e seq).run.run w).2 p
        (ws ++ [({ e with seq }, ({ e with seq } : Event).lineBytes.take j)]) ended' last' ∧
      ∀ v, ((log.appendAt e seq).run.run w).1 = .ok v →
        v = { e with seq } ∧
          ({ e with seq } : Event).lineBytes.take j = ({ e with seq } : Event).lineBytes := by
  unfold appendAt
  rw [WorldE.run_bind, h.lastByte_run]
  dsimp only
  rw [logBytes_getLast?_any (h.written.plain last (by simp)).1, appendLine_bytes, WorldE.run_bind]
  generalize ({ e with seq } : Event) = ev at hframed ⊢
  have hfix : (if decide (last ≠ []) = true then [(10 : UInt8)] else [])
      = if last = [] then [] else [10] := by
    by_cases hlast : last = [] <;> simp [hlast]
  rw [hfix]
  obtain ⟨hcwd, hout⟩ := h.write_run ((if last = [] then [] else [10]) ++ ev.lineBytes ++ [10])
  generalize (log.write _).run.run w = r at hcwd hout ⊢
  obtain ⟨res, w'⟩ := r
  rcases hout with ⟨hdisk, hfail⟩ | ⟨k, m, hdisk, hm, hok⟩
  · cases res with
    | ok u => exact absurd rfl hfail
    | error err =>
      refine ⟨0, ended, last, h.of_same hdisk hcwd (h.written.append_nothing hframed), ?_⟩
      intro v hv
      cases hv
  · obtain ⟨ended', last', hws', hbytes⟩ := h.written.append hframed k
    dsimp only at hcwd hdisk hok
    have hw' := h.of_put (by rw [hdisk, hbytes]) hm hcwd hws'
    cases res with
    | error err => exact ⟨_, ended', last', hw', fun v hv => by cases hv⟩
    | ok u =>
      have hk := hok rfl
      refine ⟨_, ended', last', hw', fun v hv => ?_⟩
      cases hv
      refine ⟨rfl, List.take_of_length_le ?_⟩
      by_cases hlast : last = [] <;> simp [hk, hlast]

/-- A run of appends keeps the log holding what they left, each answer telling whether its line
went through whole. -/
theorem Holds.appendAll_run (h : log.Holds w p ws ended last) (calls : List (Event × Nat))
    (hframed : ∀ c ∈ calls, ({ c.1 with seq := c.2 } : Event).Framed) :
    ∃ ws' ended' last',
      log.Holds ((calls.mapM fun c => (log.appendAt c.1 c.2).run).run w).2 p (ws ++ ws') ended' last' ∧
      ws'.map (·.1) = calls.map (fun c => ({ c.1 with seq := c.2 } : Event)) ∧
      List.Forall₂ (fun r q => ∀ v, r = .ok v → v = q.1 ∧ q.2 = q.1.lineBytes)
        ((calls.mapM fun c => (log.appendAt c.1 c.2).run).run w).1 ws' := by
  induction calls generalizing w ws ended last with
  | nil =>
    refine ⟨[], ended, last, ?_, rfl, .nil⟩
    show log.Holds w p (ws ++ []) ended last
    simpa using h
  | cons c rest ih =>
    obtain ⟨j, ended₁, last₁, h₁, hres⟩ := h.appendAt_run c.1 c.2 (hframed c (by simp))
    obtain ⟨ws', ended', last', h', hevents, hanswers⟩ :=
      ih h₁ (fun c' hc' => hframed c' (by simp [hc']))
    refine ⟨(({ c.1 with seq := c.2 } : Event), ({ c.1 with seq := c.2 } : Event).lineBytes.take j)
      :: ws', ended', last', ?_, ?_, ?_⟩
    · rw [mapM_cons_run]
      simpa using h'
    · simp [hevents]
    · rw [mapM_cons_run]
      exact .cons (fun v hv => hres v hv) hanswers

/-- A log whose directory is there and whose file is not made yet holds nothing. -/
theorem holds_fresh {m : Nat} (hdir : w.disk.metadata w.cwd log.dir = .ok (.dir m))
    (hfresh : w.disk.metadata w.cwd log.path = .error .notFound) :
    ∃ p, log.Holds w p [] [] [] := by
  obtain ⟨q, hloc, hget⟩ := metadata_eq_ok_iff.mp hdir
  have hpath : w.disk.locate w.cwd log.path = .ok (q ++ [eventsFileName]) := by
    rw [EventLog.path, locate_join _ _ _ (by decide) (by decide), dirOf, walkDirs_of_walk hloc hget]
    rfl
  have hnone : w.disk.get? (q ++ [eventsFileName]) = none := by
    cases hfile : w.disk.get? (q ++ [eventsFileName]) with
    | none => rfl
    | some e => rw [metadata_of_get? hpath hfile] at hfresh; cases hfresh
  have hempty : Written.Holds [] [] [] := ⟨fun _ hq => absurd hq List.not_mem_nil, rfl⟩
  exact ⟨q ++ [eventsFileName],
    { path := hpath
      dirPath := by simpa using hloc
      dir := ⟨m, by simpa using hget⟩
      file := .inl ⟨hnone, rfl, rfl⟩
      written := hempty }⟩

end Append


/-- Appends with rising sequence numbers of framed events to a log not made yet, any of them torn
after any byte: what each append left is recorded, an append that answers with its event left its
whole line, reading from `k` gives, in order, the events left whole with sequence number `k` or more
unless a cut line ends inside a character, and the tail scan gives the last event left whole. -/
theorem framed_appends_read_back {log : EventLog} {w : World} {m : Nat}
    (hdir : w.disk.metadata w.cwd log.dir = .ok (.dir m))
    (hfresh : w.disk.metadata w.cwd log.path = .error .notFound) (calls : List (Event × Nat))
    (hframed : ∀ c ∈ calls, ({ c.1 with seq := c.2 } : Event).Framed)
    (hrising : (calls.map (·.2)).Pairwise (· < ·)) :
    let run := (calls.mapM fun c => (log.appendAt c.1 c.2).run).run w
    ∃ ws : Written, ws.Prefixes ∧
      ws.map (·.1) = calls.map (fun c => ({ c.1 with seq := c.2 } : Event)) ∧
      List.Forall₂ (fun r q => ∀ v, r = .ok v → v = q.1 ∧ q.2 = q.1.lineBytes) run.1 ws ∧
      (∀ k, (log.readFrom k).run.run run.2
        = (if ws.Decodable then .ok (ws.complete k) else .error .invalidUtf8, run.2)) ∧
      ∃ r, log.lastSeq.run.run run.2 = (r, run.2) ∧
        (r = .ok (((ws.complete 0).getLast?.map (·.seq)).getD 0)
          ∨ (r = .error .invalidUtf8 ∧ ¬ ws.Decodable)) := by
  intro run
  obtain ⟨p, h₀⟩ := holds_fresh hdir hfresh
  obtain ⟨ws, ended, last, h, hevents, hanswers⟩ := h₀.appendAll_run calls hframed
  rw [List.nil_append] at h
  have hseqs : ws.map (·.1.seq) = calls.map (·.2) := by
    have := congrArg (List.map (·.seq)) hevents
    simpa [List.map_map, Function.comp_def] using this
  have hsorted : ((ws.complete 0).map (·.seq)).Pairwise (· ≤ ·) := by
    have hsub := (ws.complete_sublist 0).map (·.seq)
    rw [List.map_map, Function.comp_def, hseqs] at hsub
    exact (hrising.sublist hsub).imp Nat.le_of_lt
  exact ⟨ws, h.written.prefixes, hevents, hanswers, h.readFrom_run, h.lastSeq_run hsorted⟩

end EventLog

end RunJournal
