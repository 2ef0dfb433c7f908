import RunJournal.Proofs.MakeDirs
import RunJournal.Proofs.WholeLogs
import RunJournal.Proofs.StoredTraces
import RunJournal.Proofs.StoreReads
import RunJournal.Proofs.Frame
/-!
# A run's files while no append is torn

The store keeps a run in three files of one directory: the log, the snapshot and the approval.
`RunFiles x w E n` says what a store that never tears an append leaves there: the log holds the
whole lines of `E`, events numbered `1, 2, …` with the run's start first and every later one
accepted by the trace before it (`Logged`); the snapshot, when there is one, is the trace rebuilt
from the first `k ≤ n` events; there is no approval; and every tail a store remembers for the run
is the size and last number of such a prefix (`Fits`). The bound `n` is the part of the log the
snapshot and the memories may know of: all of it between calls, all but the last event while a
call is between its append and its snapshot.

Reads are answered from the invariant: the lock and the approval check pass, the current tail is
the log's size and length whatever a store remembers, and loading the run gives the trace rebuilt
from the whole log (`RunFiles.loadRun_run`). Each write keeps the invariant with what it wrote
(`RunFiles.setLog`, `RunFiles.setTrace`, `RunFiles.setTail`, `RunFiles.makeDirs`), and so do the
store's writing steps, whichever of their writes fail: an append leaves the log one event longer
or as it was (`RunFiles.appendAt_run`), and a commit after it either writes the snapshot of the
longer log or fails on the disk or in the serializer, with the append undone or left
(`RunFiles.commit_run`).
-/

namespace RunJournal

open Disk

/-- A run below a store root: the root's text and the place it leads to, and the run's project and
id, plain names the file system takes, so each of the run's paths resolves one name at a time. -/
structure RunSite where
  root : String
  rootPlace : List String
  project : String
  run : String
  project_plain : Path.PlainName project
  project_short : project.utf8ByteSize ≤ 255
  run_plain : Path.PlainName run
  run_short : run.utf8ByteSize ≤ 255

namespace RunSite

variable (x : RunSite)

/-- The run's directory, as a store with this root names it. -/
def dir : String := Path.join (Path.join x.root x.project) x.run

abbrev log : EventLog := ⟨x.dir⟩

def projectPlace : List String := x.rootPlace ++ [x.project]

def runPlace : List String := x.rootPlace ++ [x.project, x.run]

/-- Where the file `name` of the run's directory sits. -/
def filePlace (name : String) : List String := x.runPlace ++ [name]

/-- The key under which the store numbered `id` remembers the run's log. -/
def key (id : Nat) : TailKey := (id, x.project, x.run)

theorem runDir_eq {s : Store} (hs : s.root = x.root) : s.runDir x.project x.run = x.dir := by
  rw [Store.runDir, hs]
  rfl

theorem log_path : x.log.path = Path.join x.dir eventsFileName := rfl

/-! The places are all different. -/

theorem filePlace_ne {a b : String} (hab : a ≠ b) : x.filePlace a ≠ x.filePlace b := by
  simp [filePlace, hab]

theorem filePlace_ne_runPlace (a : String) : x.filePlace a ≠ x.runPlace := by
  simp [filePlace]

theorem filePlace_ne_projectPlace (a : String) : x.filePlace a ≠ x.projectPlace := by
  simp [filePlace, runPlace, projectPlace]

theorem filePlace_ne_rootPlace (a : String) : x.filePlace a ≠ x.rootPlace := by
  simp [filePlace, runPlace]

theorem runPlace_ne_rootPlace : x.runPlace ≠ x.rootPlace := by
  simp [runPlace]

theorem projectPlace_ne_rootPlace : x.projectPlace ≠ x.rootPlace := by
  simp [projectPlace]

theorem filePlace_dropLast (a : String) : (x.filePlace a).dropLast = x.runPlace := by
  simp [filePlace]

theorem filePlace_ne_nil (a : String) : x.filePlace a ≠ [] := by
  simp [filePlace]

/-! Where the run's paths lead. -/

variable {d : Disk} {cwd : List String}

theorem dirOf_dir (hroot : d.dirOf cwd x.root = .ok x.rootPlace) {m₁ m₂ : Nat}
    (hproject : d.get? x.projectPlace = some (.dir m₁)) (hrun : d.get? x.runPlace = some (.dir m₂)) :
    d.dirOf cwd x.dir = .ok x.runPlace := by
  rw [dir, dirOf_join x.run_plain, dirOf_join x.project_plain, hroot]
  have hrun' : d.get? (x.rootPlace ++ [x.project] ++ [x.run]) = some (.dir m₂) := by
    rw [List.append_assoc]
    exact hrun
  simp only [Except.bind, walkDirs_normal_dir x.project_short hproject,
    walkDirs_normal_dir x.run_short hrun']
  simp [runPlace]

theorem dirOf_dir_of_none (hroot : d.dirOf cwd x.root = .ok x.rootPlace)
    (hproject : d.get? x.projectPlace = none ∨ ∃ m, d.get? x.projectPlace = some (.dir m))
    (hrun : d.get? x.runPlace = none) : d.dirOf cwd x.dir = .error .notFound := by
  rw [dir, dirOf_join x.run_plain, dirOf_join x.project_plain, hroot]
  rcases hproject with hnone | ⟨m, hdir⟩
  · simp [Except.bind, walkDirs_normal_none x.project_short hnone]
  · have hrun' : d.get? (x.rootPlace ++ [x.project] ++ [x.run]) = none := by
      rw [List.append_assoc]
      exact hrun
    simp only [Except.bind, walkDirs_normal_dir x.project_short hdir,
      walkDirs_normal_none x.run_short hrun']

theorem locate_dir (hroot : d.dirOf cwd x.root = .ok x.rootPlace) {m : Nat}
    (hproject : d.get? x.projectPlace = some (.dir m)) : d.locate cwd x.dir = .ok x.runPlace :=
  locate_run hroot x.project_plain x.project_short x.run_plain x.run_short hproject

/-- A plain file name of the run's directory is found at its place once the directory is there. -/
theorem locate_file (hroot : d.dirOf cwd x.root = .ok x.rootPlace) {m₁ m₂ : Nat}
    (hproject : d.get? x.projectPlace = some (.dir m₁)) (hrun : d.get? x.runPlace = some (.dir m₂))
    {name : String} (hname : Path.PlainName name) (hshort : name.utf8ByteSize ≤ 255) :
    d.locate cwd (Path.join x.dir name) = .ok (x.filePlace name) := by
  rw [Disk.locate_join d cwd _ hname hshort, x.dirOf_dir hroot hproject hrun]
  rfl

theorem metadata_file_of_none (hroot : d.dirOf cwd x.root = .ok x.rootPlace)
    (hproject : d.get? x.projectPlace = none ∨ ∃ m, d.get? x.projectPlace = some (.dir m))
    (hrun : d.get? x.runPlace = none) {name : String} (hname : Path.PlainName name)
    (hshort : name.utf8ByteSize ≤ 255) :
    d.metadata cwd (Path.join x.dir name) = .error .notFound := by
  have hloc : d.locate cwd (Path.join x.dir name) = .error .notFound := by
    rw [Disk.locate_join d cwd _ hname hshort, x.dirOf_dir_of_none hroot hproject hrun]
    rfl
  simp [metadata, hloc, bind, Except.bind]

end RunSite

theorem plain_eventsFileName : Path.PlainName eventsFileName := by decide

theorem plain_traceFileName : Path.PlainName traceFileName := by decide

theorem plain_approvalFileName : Path.PlainName approvalFileName := by decide

theorem short_eventsFileName : eventsFileName.utf8ByteSize ≤ 255 := by decide

theorem short_traceFileName : traceFileName.utf8ByteSize ≤ 255 := by decide

theorem short_approvalFileName : approvalFileName.utf8ByteSize ≤ 255 := by decide

/-! ## The invariant -/

/-- The events of a log the store wrote whole: numbered `1, 2, …` in order, storable, starting with
the run's start when there are any, each later one accepted by the trace of those before it, and
fewer than the largest word. -/
structure Logged (E : List Event) : Prop where
  seqs : E.map (·.seq) = List.range' 1 E.length
  storable : ∀ e ∈ E, e.Storable
  start : ∀ e ∈ E.head?, ∃ name specs exec, e.kind = .runStarted name specs exec ∧
    specs.length ≤ wordMax
  accepted : ∀ k (hk : k < E.length), 0 < k →
    ∃ t t', Trace.rebuild (E.take k) = some t ∧ t.apply E[k] = .ok t'
  short : E.length < wordMax

theorem Trace.apply_ne_ok_of_runStarted {t t' : Trace} {e : Event} {name : String}
    {specs : List AgentSpec} {exec : Execution} (hk : e.kind = .runStarted name specs exec) :
    t.apply e ≠ .ok t' := by
  intro h
  rcases Trace.apply_eq_ok h with ⟨hlog, -⟩ | ⟨-, u, hu, -⟩
  · simp [hk, EventKind.isLog] at hlog
  · cases hu <;> simp_all

namespace Logged

variable {E : List Event}

theorem seq_getElem (h : Logged E) (k : Nat) (hk : k < E.length) : E[k].seq = k + 1 := by
  have hk' := congrArg (·[k]?) h.seqs
  simp only [List.getElem?_map, List.getElem?_eq_getElem hk, List.getElem?_range', hk,
    Option.map_some, Option.some.injEq] at hk'
  omega

theorem sorted (h : Logged E) : E.Pairwise (·.seq < ·.seq) := by
  have hrange : (List.range' 1 E.length).Pairwise (· < ·) := List.pairwise_lt_range'
  rwa [← h.seqs, List.pairwise_map] at hrange

theorem pos (h : Logged E) : ∀ e ∈ E, 1 ≤ e.seq := by
  intro e he
  have hmem : e.seq ∈ List.range' 1 E.length := h.seqs ▸ List.mem_map_of_mem he
  exact (List.mem_range'_1.mp hmem).1

theorem sorted_le (h : Logged E) : (E.map (·.seq)).Pairwise (· ≤ ·) := by
  rw [List.pairwise_map]
  exact h.sorted.imp Nat.le_of_lt

theorem filter_seq_ge (h : Logged E) (k : Nat) : E.filter (fun e => k + 1 ≤ e.seq) = E.drop k := by
  conv_lhs => rw [← List.take_append_drop k E]
  rw [List.filter_append, List.filter_eq_nil_iff.mpr, List.filter_eq_self.mpr, List.nil_append]
  · intro e he
    obtain ⟨i, hi, rfl⟩ := List.getElem_of_mem he
    rw [List.getElem_drop, h.seq_getElem]
    simp
  · intro e he
    obtain ⟨i, hi, rfl⟩ := List.getElem_of_mem he
    rw [List.getElem_take, h.seq_getElem]
    rw [List.length_take] at hi
    simp only [decide_eq_true_eq]
    omega

theorem rebuild_lastSeq (h : Logged E) {k : Nat} (hk : k ≤ E.length) {t : Trace}
    (ht : Trace.rebuild (E.take k) = some t) : t.lastSeq = k := by
  obtain ⟨hle, hmem⟩ := Trace.rebuild_watermark ht
  have hseqs : (E.take k).map (·.seq) = List.range' 1 k := by
    rw [List.map_take, h.seqs, List.take_range'_of_length_ge hk]
  rw [hseqs, List.mem_range'_1] at hmem
  have hpos : 0 < k := by
    rcases Nat.eq_zero_or_pos k with rfl | hpos
    · simp [Trace.rebuild] at ht
    · exact hpos
  have hbound : k - 1 < (E.take k).length := by
    rw [List.length_take]
    omega
  have hlast := hle (E.take k)[k - 1] (List.getElem_mem hbound)
  rw [List.getElem_take, h.seq_getElem] at hlast
  omega

theorem rebuild_isSome (h : Logged E) (hne : E ≠ []) : ∃ D, Trace.rebuild E = some D := by
  obtain ⟨first, rest, rfl⟩ := List.exists_cons_of_ne_nil hne
  obtain ⟨name, specs, exec, hkind, -⟩ := h.start first rfl
  cases hD : Trace.rebuild (first :: rest) with
  | none => simp [Trace.rebuild, hkind] at hD
  | some D => exact ⟨D, rfl⟩

theorem last_seq (h : Logged E) : (E.getLast?.map (·.seq)).getD 0 = E.length := by
  rw [← List.getLast?_map, h.seqs, List.getLast?_range']
  split
  · next hzero => exact hzero.symm
  · simp only [Option.getD_some]
    omega

theorem only_start (h : Logged E) (k : Nat) (hk : k < E.length) (hpos : 0 < k)
    (name : String) (specs : List AgentSpec) (exec : Execution) :
    E[k].kind ≠ .runStarted name specs exec := by
  intro hkind
  obtain ⟨t, t', -, happ⟩ := h.accepted k hk hpos
  exact Trace.apply_ne_ok_of_runStarted hkind happ

theorem specs_le (h : Logged E) : ∀ e ∈ E, ∀ name specs exec,
    e.kind = .runStarted name specs exec → specs.length ≤ wordMax := by
  intro e he name specs exec hkind
  obtain ⟨k, hk, rfl⟩ := List.getElem_of_mem he
  cases k with
  | zero =>
    obtain ⟨name', specs', exec', hkind', hle⟩ := h.start E[0]
      (by rw [List.head?_eq_getElem?, List.getElem?_eq_getElem hk]; rfl)
    rw [hkind] at hkind'
    cases hkind'
    exact hle
  | succ k => exact absurd hkind (h.only_start (k + 1) hk (Nat.succ_pos k) name specs exec)

theorem trace_storable (h : Logged E) {k : Nat} {t : Trace} (ht : Trace.rebuild (E.take k) = some t) :
    t.Storable :=
  Trace.rebuild_storable (fun e he => h.storable e (List.mem_of_mem_take he))
    (fun e he => h.specs_le e (List.mem_of_mem_take he))
    (le_trans (List.length_take_le' k E) h.short.le) ht

theorem of_append {F : List Event} (h : Logged (E ++ F)) : Logged E where
  seqs := by
    have hseqs := h.seqs
    rw [List.map_append, List.length_append, ← List.range'_append_1] at hseqs
    exact (List.append_inj hseqs (by simp)).1
  storable := fun e he => h.storable e (List.mem_append_left F he)
  start := by
    intro e he
    cases E with
    | nil => cases he
    | cons first rest => exact h.start e he
  accepted := by
    intro k hk hpos
    obtain ⟨t, t', ht, happ⟩ := h.accepted k (by rw [List.length_append]; omega) hpos
    refine ⟨t, t', by rwa [List.take_append_of_le_length hk.le] at ht, ?_⟩
    rwa [List.getElem_append_left hk] at happ
  short := lt_of_le_of_lt (by rw [List.length_append]; omega) h.short

/-- One more event, numbered next: the run's start on an empty log, else one the trace accepts. -/
theorem snoc (h : Logged E) {ev : Event} (hseq : ev.seq = E.length + 1) (hst : ev.Storable)
    (hfirst : E = [] → ∃ name specs exec, ev.kind = .runStarted name specs exec ∧
      specs.length ≤ wordMax)
    (hnext : E ≠ [] → ∃ t t', Trace.rebuild E = some t ∧ t.apply ev = .ok t')
    (hshort : E.length + 1 < wordMax) : Logged (E ++ [ev]) where
  seqs := by
    rw [List.map_append, h.seqs, List.length_append, List.length_singleton, List.range'_concat,
      List.map_singleton, hseq]
    congr 2
    omega
  storable := by
    intro e he
    rcases List.mem_append.mp he with he | he
    · exact h.storable e he
    · rw [List.mem_singleton.mp he]
      exact hst
  start := by
    intro e he
    cases E with
    | nil =>
      rw [List.nil_append, List.head?_cons, Option.mem_some_iff] at he
      subst he
      exact hfirst rfl
    | cons first rest => exact h.start e (by simpa using he)
  accepted := by
    intro k hk hpos
    rw [List.length_append, List.length_singleton] at hk
    rcases Nat.lt_or_ge k E.length with hlt | hge
    · obtain ⟨t, t', ht, happ⟩ := h.accepted k hlt hpos
      refine ⟨t, t', by rwa [List.take_append_of_le_length hlt.le], ?_⟩
      rwa [List.getElem_append_left hlt]
    · have hkE : k = E.length := by omega
      subst hkE
      obtain ⟨t, t', ht, happ⟩ := hnext (List.ne_nil_of_length_pos hpos)
      refine ⟨t, t', by rwa [List.take_left], ?_⟩
      simpa using happ
  short := by
    rw [List.length_append, List.length_singleton]
    exact hshort

end Logged

/-- An error of the file system, or of the serializer writing to it. -/
def StoreError.IsIo : StoreError → Prop
  | .io _ | .json _ => True
  | _ => False

/-- The tail the store remembers for a run's log. -/
def World.tailOf (w : World) (key : TailKey) : Option LogTail :=
  (w.tails.find? (·.1 == key)).map (·.2)

theorem rememberTail_run (w : World) (key : TailKey) (tail : Option LogTail) :
    (rememberTail key tail).run w =
      ((), { w with tails := w.tails.filter (·.1 != key) ++ (tail.map fun t => (key, t)).toList }) := by
  cases tail with
  | none =>
    show _ = ((), { w with tails := _ ++ [] })
    rw [List.append_nil]
    rfl
  | some t => rfl

theorem World.tailOf_rememberTail (w : World) (key key' : TailKey) (tail : Option LogTail) :
    ((rememberTail key tail).run w).2.tailOf key' = if key' = key then tail else w.tailOf key' := by
  rw [rememberTail_run]
  simp only [World.tailOf, List.find?_append, List.find?_filter]
  by_cases hk : key' = key
  · subst hk
    have hnone : w.tails.find? (fun a => decide ((a.1 != key') = true ∧ (a.1 == key') = true))
        = none := by
      simp [List.find?_eq_none]
    rw [hnone, Option.none_or, if_pos rfl]
    cases tail <;> simp
  · have hsame : (fun a : TailKey × LogTail => decide ((a.1 != key) = true ∧ (a.1 == key') = true))
        = (·.1 == key') := by
      funext a
      by_cases ha : a.1 = key' <;> simp [ha, hk]
    rw [hsame, if_neg hk]
    cases hfind : w.tails.find? (·.1 == key') with
    | some a => rfl
    | none => cases tail <;> simp [Ne.symm hk]

/-- What a store may remember of a log holding `E`: the size and last number of its first `k`
events, for `k` up to `n`. -/
def Fits (E : List Event) (n : Nat) (tail : LogTail) : Prop :=
  ∃ k ≤ n, tail = ⟨(wholeBytes (E.take k)).length, k⟩

/-- A run's files below a root that is a directory, as a store that tears no append keeps them. -/
structure RunFiles (x : RunSite) (w : World) (E : List Event) (n : Nat) : Prop where
  /-- The root is a directory at its place. -/
  root : w.disk.dirOf w.cwd x.root = .ok x.rootPlace
  rootDir : ∃ m, w.disk.get? x.rootPlace = some (.dir m)
  /-- The project's and the run's directories are missing or directories, the run's only where
  the project's is. -/
  project : w.disk.get? x.projectPlace = none ∨ ∃ m, w.disk.get? x.projectPlace = some (.dir m)
  runDir : w.disk.get? x.runPlace = none ∨ ∃ m, w.disk.get? x.runPlace = some (.dir m)
  order : w.disk.get? x.projectPlace = none → w.disk.get? x.runPlace = none
  /-- Without the run's directory there is neither log nor snapshot. -/
  unmade : w.disk.get? x.runPlace = none →
    w.disk.get? (x.filePlace eventsFileName) = none ∧ w.disk.get? (x.filePlace traceFileName) = none
  /-- The log holds the whole lines of `E` and its owner may read and write it, or it is missing
  while `E` is empty. -/
  log : (w.disk.get? (x.filePlace eventsFileName) = none ∧ E = []) ∨
    ∃ m, w.disk.get? (x.filePlace eventsFileName) = some (.file (wholeBytes E) m) ∧
      canRead m ∧ canWrite m
  /-- The snapshot is missing, or the trace of a prefix of at most `n` events that its owner may
  read. -/
  trace : w.disk.get? (x.filePlace traceFileName) = none ∨
    ∃ k ≤ n, ∃ t m, Trace.rebuild (E.take k) = some t ∧
      w.disk.get? (x.filePlace traceFileName) = some (.file t.fileText.toUTF8.toList m) ∧
      canRead m
  approval : w.disk.get? (x.filePlace approvalFileName) = none
  logged : Logged E
  bound : n ≤ E.length
  /-- Every store remembers of the log at most the size and number of a prefix. -/
  tails : ∀ id tail, w.tailOf (x.key id) = some tail → Fits E n tail
  noTears : w.NoTears

theorem Fits.mono {E : List Event} {n n' : Nat} {tail : LogTail} (h : Fits E n tail) (hn : n ≤ n') :
    Fits E n' tail := by
  obtain ⟨k, hk, rfl⟩ := h
  exact ⟨k, hk.trans hn, rfl⟩

/-- Two logs that agree on their first `n` events agree on every shorter prefix. -/
theorem take_eq_of_take_eq {E E' : List Event} {n k : Nat} (htake : E'.take n = E.take n)
    (hk : k ≤ n) : E'.take k = E.take k := by
  rw [← Nat.min_eq_left hk, ← List.take_take, htake, List.take_take]

theorem Fits.of_take_eq {E E' : List Event} {n : Nat} {tail : LogTail} (h : Fits E n tail)
    (htake : E'.take n = E.take n) : Fits E' n tail := by
  obtain ⟨k, hk, rfl⟩ := h
  exact ⟨k, hk, by rw [take_eq_of_take_eq htake hk]⟩

/-- A fitting tail of the whole log's size is the whole log's tail: every shorter prefix has
fewer bytes. -/
theorem Fits.eq_of_bytes {E : List Event} {n : Nat} {tail : LogTail} (h : Fits E n tail)
    (hn : n ≤ E.length) (hbytes : tail.bytes = (wholeBytes E).length) :
    tail = ⟨(wholeBytes E).length, E.length⟩ := by
  obtain ⟨k, hk, rfl⟩ := h
  obtain hkE | hkE := Nat.lt_or_ge k E.length
  · have hlt := length_wholeBytes_take_lt E hkE le_rfl
    rw [List.take_length] at hlt
    exact absurd hbytes (Nat.ne_of_lt hlt)
  · rw [show k = E.length by omega, List.take_length]

namespace RunFiles

variable {x : RunSite} {w w' : World} {E E' : List Event} {n : Nat}

theorem project_of_run (h : RunFiles x w E n) {m : Nat}
    (hrun : w.disk.get? x.runPlace = some (.dir m)) :
    ∃ m, w.disk.get? x.projectPlace = some (.dir m) := by
  rcases h.project with hnone | hdir
  · rw [h.order hnone] at hrun
    cases hrun
  · exact hdir

/-! ## What the store reads -/

/-- A file of the run is read at its place, and found nowhere while the run's directory is
missing. -/
theorem metadata_file (h : RunFiles x w E n) {name : String} (hname : Path.PlainName name)
    (hshort : name.utf8ByteSize ≤ 255)
    (hunmade : w.disk.get? x.runPlace = none → w.disk.get? (x.filePlace name) = none) :
    w.disk.metadata w.cwd (Path.join x.dir name) =
      (w.disk.get? (x.filePlace name)).elim (.error .notFound) .ok := by
  rcases h.runDir with hnone | ⟨m, hrun⟩
  · rw [x.metadata_file_of_none h.root h.project hnone hname hshort, hunmade hnone]
    rfl
  · obtain ⟨m', hproject⟩ := h.project_of_run hrun
    have hloc := x.locate_file h.root hproject hrun hname hshort
    cases hget : w.disk.get? (x.filePlace name) with
    | none => exact metadata_of_get?_none hloc hget
    | some e => exact metadata_of_get? hloc hget

theorem shows (h : RunFiles x w E n) : x.log.Shows w E := by
  have hmeta := h.metadata_file plain_eventsFileName short_eventsFileName fun hnone =>
    (h.unmade hnone).1
  rw [← x.log_path] at hmeta
  rcases h.log with ⟨hnone, rfl⟩ | ⟨m, hfile, hm, -⟩
  · rw [hnone] at hmeta
    exact .inr ⟨hmeta, rfl⟩
  · rw [hfile] at hmeta
    exact .inl ⟨m, hmeta, hm⟩

theorem approval_metadata (h : RunFiles x w E n) :
    w.disk.metadata w.cwd (Path.join x.dir approvalFileName) = .error .notFound := by
  rw [h.metadata_file plain_approvalFileName short_approvalFileName fun _ => h.approval,
    h.approval]
  rfl

theorem trace_metadata (h : RunFiles x w E n) :
    w.disk.metadata w.cwd (Path.join x.dir traceFileName) = .error .notFound ∨
      ∃ k ≤ n, ∃ t m, Trace.rebuild (E.take k) = some t ∧
        w.disk.metadata w.cwd (Path.join x.dir traceFileName) =
          .ok (.file t.fileText.toUTF8.toList m) ∧ canRead m := by
  rw [h.metadata_file plain_traceFileName short_traceFileName fun hnone => (h.unmade hnone).2]
  rcases h.trace with hnone | ⟨k, hk, t, m, ht, hfile, hm⟩
  · rw [hnone]
    exact .inl rfl
  · rw [hfile]
    exact .inr ⟨k, hk, t, m, ht, rfl, hm⟩

theorem whole (h : RunFiles x w E n) {m : Nat} (hrun : w.disk.get? x.runPlace = some (.dir m)) :
    x.log.Whole w.disk w.cwd (x.filePlace eventsFileName) E := by
  obtain ⟨m', hproject⟩ := h.project_of_run hrun
  refine ⟨x.locate_file h.root hproject hrun plain_eventsFileName short_eventsFileName, ?_,
    ⟨m, by rw [x.filePlace_dropLast]; exact hrun⟩, h.log⟩
  rw [x.filePlace_dropLast]
  exact x.locate_dir h.root hproject

/-! ## What keeps the invariant -/

theorem mono (h : RunFiles x w E n) {n' : Nat} (hn : n ≤ n') (hn' : n' ≤ E.length) :
    RunFiles x w E n' where
  __ := h
  trace := by
    rcases h.trace with hnone | ⟨k, hk, rest⟩
    · exact .inl hnone
    · exact .inr ⟨k, hk.trans hn, rest⟩
  bound := hn'
  tails := fun id tail htail => (h.tails id tail htail).mono hn

theorem keep (h : RunFiles x w E n) (hdisk : w'.disk = w.disk) (hcwd : w'.cwd = w.cwd)
    (htails : w'.tails = w.tails) (hnt : w'.NoTears)  : RunFiles x w' E n where
  root := by rw [hdisk, hcwd]; exact h.root
  rootDir := by rw [hdisk]; exact h.rootDir
  project := by rw [hdisk]; exact h.project
  runDir := by rw [hdisk]; exact h.runDir
  order := by rw [hdisk]; exact h.order
  unmade := by rw [hdisk]; exact h.unmade
  log := by rw [hdisk]; exact h.log
  trace := by rw [hdisk]; exact h.trace
  approval := by rw [hdisk]; exact h.approval
  logged := h.logged
  bound := h.bound
  tails := by
    have htailOf : w'.tailOf = w.tailOf := by
      funext key
      simp only [World.tailOf, htails]
    rw [htailOf]
    exact h.tails
  noTears := hnt

theorem log_not_dir (h : RunFiles x w E n) :
    ∀ m, w.disk.get? (x.filePlace eventsFileName) ≠ some (.dir m) := by
  intro m hdir
  rcases h.log with ⟨hnone, -⟩ | ⟨m', hfile, -⟩
  · rw [hnone] at hdir
    cases hdir
  · rw [hfile] at hdir
    cases hdir

theorem trace_not_dir (h : RunFiles x w E n) :
    ∀ m, w.disk.get? (x.filePlace traceFileName) ≠ some (.dir m) := by
  intro m hdir
  rcases h.trace with hnone | ⟨k, -, t, m', -, hfile, -⟩
  · rw [hnone] at hdir
    cases hdir
  · rw [hfile] at hdir
    cases hdir

theorem tailOf_eq (htails : w'.tails = w.tails) : w'.tailOf = w.tailOf := by
  funext key
  simp only [World.tailOf, htails]

theorem writes (h : RunFiles x w E n) (hw : w.Writes w') (hdisk : w'.disk = w.disk) :
    RunFiles x w' E n :=
  h.keep hdisk hw.cwd hw.tails (h.noTears.writes hw)

theorem runDir_of_ne_nil (h : RunFiles x w E n) (hne : E ≠ []) :
    ∃ m, w.disk.get? x.runPlace = some (.dir m) := by
  rcases h.runDir with hnone | hdir
  · rcases h.log with ⟨-, hE⟩ | ⟨m, hfile, -⟩
    · exact absurd hE hne
    · rw [(h.unmade hnone).1] at hfile
      cases hfile
  · exact hdir

/-- Once the log holds an event, a file of the run's directory reads as it is stored. -/
theorem read_file (h : RunFiles x w E n) (hne : E ≠ []) {name : String} (hname : Path.PlainName name)
    (hshort : name.utf8ByteSize ≤ 255) {b : List UInt8} {m : Nat}
    (hget : w.disk.get? (x.filePlace name) = some (.file b m)) (hm : canRead m) :
    w.disk.read w.cwd (Path.join x.dir name) = .ok b := by
  obtain ⟨m₂, hrun⟩ := h.runDir_of_ne_nil hne
  obtain ⟨m₁, hproject⟩ := h.project_of_run hrun
  exact read_of_file (x.locate_file h.root hproject hrun hname hshort) hget hm

theorem read_log (h : RunFiles x w E n) (hne : E ≠ []) :
    w.disk.read w.cwd x.log.path = .ok (wholeBytes E) := by
  rcases h.log with ⟨-, hE⟩ | ⟨m, hfile, hm, -⟩
  · exact absurd hE hne
  · exact h.read_file hne plain_eventsFileName short_eventsFileName hfile hm

/-- Writing the log with the whole lines of events that agree with the old ones on the first `n`
keeps the invariant, once the run's directory is there. -/
theorem setLog (h : RunFiles x w E n) {m₀ : Nat} (hrun : w.disk.get? x.runPlace = some (.dir m₀))
    (hlogged : Logged E') (hn : n ≤ E'.length) (htake : E'.take n = E.take n) {m : Nat}
    (hm : canRead m ∧ canWrite m)
    (hdisk : w'.disk = w.disk.put (x.filePlace eventsFileName) (.file (wholeBytes E') m))
    (hcwd : w'.cwd = w.cwd) (htails : w'.tails = w.tails) (hnt : w'.NoTears) :
    RunFiles x w' E' n where
  root := by
    rw [hdisk, hcwd]
    exact walkDirs_keepsDirs (keepsDirs_put _ h.log_not_dir) h.root
  rootDir := by
    rw [hdisk, get?_put_ne _ (x.filePlace_ne_rootPlace _).symm]
    exact h.rootDir
  project := by
    rw [hdisk, get?_put_ne _ (x.filePlace_ne_projectPlace _).symm]
    exact h.project
  runDir := by
    rw [hdisk, get?_put_ne _ (x.filePlace_ne_runPlace _).symm]
    exact h.runDir
  order := by
    rw [hdisk, get?_put_ne _ (x.filePlace_ne_projectPlace _).symm,
      get?_put_ne _ (x.filePlace_ne_runPlace _).symm]
    exact h.order
  unmade := by
    intro hnone
    rw [hdisk, get?_put_ne _ (x.filePlace_ne_runPlace _).symm, hrun] at hnone
    cases hnone
  log := .inr ⟨m, by rw [hdisk, get?_put_self _ (x.filePlace_ne_nil _)], hm⟩
  -- the snapshot and the memories know only the first `n` events, which the new log keeps
  trace := by
    rw [hdisk, get?_put_ne _ (x.filePlace_ne (by decide))]
    rcases h.trace with hnone | ⟨k, hk, t, m', ht, hfile⟩
    · exact .inl hnone
    · exact .inr ⟨k, hk, t, m', by rw [take_eq_of_take_eq htake hk]; exact ht, hfile⟩
  approval := by
    rw [hdisk, get?_put_ne _ (x.filePlace_ne (by decide))]
    exact h.approval
  logged := hlogged
  bound := hn
  tails := by
    rw [tailOf_eq htails]
    exact fun id tail htail => (h.tails id tail htail).of_take_eq htake
  noTears := hnt

/-- Writing the snapshot of a prefix the bound allows keeps the invariant, once the run's
directory is there. -/
theorem setTrace (h : RunFiles x w E n) {m₀ : Nat} (hrun : w.disk.get? x.runPlace = some (.dir m₀))
    {k : Nat} (hk : k ≤ n) {t : Trace} (ht : Trace.rebuild (E.take k) = some t) {m : Nat}
    (hm : canRead m)
    (hdisk : w'.disk = w.disk.put (x.filePlace traceFileName) (.file t.fileText.toUTF8.toList m))
    (hcwd : w'.cwd = w.cwd) (htails : w'.tails = w.tails) (hnt : w'.NoTears) :
    RunFiles x w' E n where
  root := by
    rw [hdisk, hcwd]
    exact walkDirs_keepsDirs (keepsDirs_put _ h.trace_not_dir) h.root
  rootDir := by
    rw [hdisk, get?_put_ne _ (x.filePlace_ne_rootPlace _).symm]
    exact h.rootDir
  project := by
    rw [hdisk, get?_put_ne _ (x.filePlace_ne_projectPlace _).symm]
    exact h.project
  runDir := by
    rw [hdisk, get?_put_ne _ (x.filePlace_ne_runPlace _).symm]
    exact h.runDir
  order := by
    rw [hdisk, get?_put_ne _ (x.filePlace_ne_projectPlace _).symm,
      get?_put_ne _ (x.filePlace_ne_runPlace _).symm]
    exact h.order
  unmade := by
    intro hnone
    rw [hdisk, get?_put_ne _ (x.filePlace_ne_runPlace _).symm, hrun] at hnone
    cases hnone
  log := by
    rw [hdisk, get?_put_ne _ (x.filePlace_ne (by decide))]
    exact h.log
  trace := .inr ⟨k, hk, t, m, ht, by rw [hdisk, get?_put_self _ (x.filePlace_ne_nil _)], hm⟩
  approval := by
    rw [hdisk, get?_put_ne _ (x.filePlace_ne (by decide))]
    exact h.approval
  logged := h.logged
  bound := h.bound
  tails := by
    rw [tailOf_eq htails]
    exact h.tails
  noTears := hnt

/-- Making the project's and the run's directories, and nothing else, keeps the invariant. -/
theorem makeDirs (h : RunFiles x w E n) {d' : Disk}
    (hproject : ∃ m, d'.get? x.projectPlace = some (.dir m))
    (hrun : ∃ m, d'.get? x.runPlace = some (.dir m))
    (hother : ∀ q, q ≠ x.projectPlace → q ≠ x.runPlace → d'.get? q = w.disk.get? q)
    (hdisk : w'.disk = d') (hcwd : w'.cwd = w.cwd) (htails : w'.tails = w.tails)
    (hnt : w'.NoTears) : RunFiles x w' E n where
  root := by
    have hkeep : KeepsDirs w.disk d' := by
      intro q m hq
      by_cases hqp : q = x.projectPlace
      · subst hqp
        exact hproject
      by_cases hqr : q = x.runPlace
      · subst hqr
        exact hrun
      exact ⟨m, by rw [hother q hqp hqr, hq]⟩
    rw [hdisk, hcwd]
    exact walkDirs_keepsDirs hkeep h.root
  rootDir := by
    rw [hdisk, hother _ x.projectPlace_ne_rootPlace.symm x.runPlace_ne_rootPlace.symm]
    exact h.rootDir
  project := by
    rw [hdisk]
    exact .inr hproject
  runDir := by
    rw [hdisk]
    exact .inr hrun
  order := by
    intro hnone
    obtain ⟨m, hdir⟩ := hproject
    rw [hdisk, hdir] at hnone
    cases hnone
  unmade := by
    intro hnone
    obtain ⟨m, hdir⟩ := hrun
    rw [hdisk, hdir] at hnone
    cases hnone
  log := by
    rw [hdisk, hother _ (x.filePlace_ne_projectPlace _) (x.filePlace_ne_runPlace _)]
    exact h.log
  trace := by
    rw [hdisk, hother _ (x.filePlace_ne_projectPlace _) (x.filePlace_ne_runPlace _)]
    exact h.trace
  approval := by
    rw [hdisk, hother _ (x.filePlace_ne_projectPlace _) (x.filePlace_ne_runPlace _)]
    exact h.approval
  logged := h.logged
  bound := h.bound
  tails := by
    rw [tailOf_eq htails]
    exact h.tails
  noTears := hnt

theorem setTail (h : RunFiles x w E n) (id : Nat) {tail : Option LogTail}
    (hfits : ∀ t ∈ tail, Fits E n t) : RunFiles x ((rememberTail (x.key id) tail).run w).2 E n where
  __ := h
  tails := by
    intro id' t' ht'
    rw [World.tailOf_rememberTail] at ht'
    split at ht'
    · exact hfits t' ht'
    · exact h.tails id' t' ht'

/-! ## Reading the run -/

theorem storeIo_run {α : Type} (m : WorldE IoError α) (w : World) :
    (storeIo m).run.run w = ((m.run.run w).1.mapError .io, (m.run.run w).2) :=
  WorldE.mapError_run _ _ _

theorem storeIo_run_ok {α : Type} {m : WorldE IoError α} {w w' : World} {a : α}
    (h : m.run.run w = (.ok a, w')) : (storeIo m).run.run w = (.ok a, w') := by
  rw [storeIo_run, h]
  rfl

theorem storeIo_run_error {α : Type} {m : WorldE IoError α} {w w' : World} {e : IoError}
    (h : m.run.run w = (.error e, w')) : (storeIo m).run.run w = (.error (.io e), w') := by
  rw [storeIo_run, h]
  rfl

theorem readAll_run (h : RunFiles x w E n) : x.log.readAll.run.run w = (.ok E, w) :=
  EventLog.readAll_whole h.shows h.logged.storable h.logged.pos

theorem byteLen_run (h : RunFiles x w E n) :
    x.log.byteLen.run.run w = (.ok (wholeBytes E).length, w) :=
  EventLog.byteLen_whole h.shows

theorem tail_run (h : RunFiles x w E n) :
    x.log.tail.run.run w = (.ok ⟨(wholeBytes E).length, E.length⟩, w) := by
  rw [EventLog.tail_whole h.shows h.logged.storable h.logged.sorted_le h.logged.pos,
    h.logged.last_seq]

theorem lockRun_run (h : RunFiles x w E n) : (lockRun x.dir).run.run w = (.ok (), w) := by
  have hmeta := h.metadata_file plain_eventsFileName short_eventsFileName fun hnone =>
    (h.unmade hnone).1
  unfold lockRun
  rw [WorldE.run_bind, onDisk_lift_run, hmeta]
  rcases h.log with ⟨hnone, -⟩ | ⟨m, hfile, hm, -⟩
  · rw [hnone]
    rfl
  · rw [hfile]
    simp only [Option.elim, Entry.mode, hm, if_true]
    rfl

theorem ensureUnlocked_run (h : RunFiles x w E n) (runId : String) :
    (Store.ensureUnlocked x.dir runId).run.run w = (.ok (), w) := by
  have hexists : w.disk.exists_ w.cwd (Path.join x.dir approvalFileName) = false := by
    simp [Disk.exists_, h.approval_metadata, Except.toBool]
  unfold Store.ensureUnlocked
  rw [WorldE.run_bind]
  simp only [pathExists, onDisk_liftM_run, hexists]
  rfl

/-- The current tail is the log's size and length, whatever fitting tail is remembered: a
remembered tail is trusted only at the log's size, which no shorter prefix has. -/
theorem currentTail_run (h : RunFiles x w E n) {remembered : Option LogTail}
    (hrem : ∀ t ∈ remembered, Fits E n t) :
    (Store.currentTail x.log remembered).run.run w = (.ok ⟨(wholeBytes E).length, E.length⟩, w) := by
  have htail := storeIo_run_ok h.tail_run
  unfold Store.currentTail
  cases remembered with
  | none => exact htail
  | some tail =>
    rw [WorldE.run_bind, storeIo_run_ok h.byteLen_run]
    dsimp only
    by_cases hbytes : tail.bytes = (wholeBytes E).length
    · rw [if_pos hbytes, (hrem tail rfl).eq_of_bytes h.bound hbytes]
      rfl
    · rw [if_neg hbytes]
      exact htail

end RunFiles

/-- Catching a snapshot of a prefix up with the log gives the trace of the whole log. -/
theorem EventLog.Shows.catchUpFromLog_run {x : RunSite} {w : World} {E : List Event}
    (hshows : x.log.Shows w E) (hl : Logged E) {k : Nat} (hk : k ≤ E.length) {t D : Trace}
    (ht : Trace.rebuild (E.take k) = some t) (hD : Trace.rebuild E = some D)
    {logSeq : Option Nat} (hseq : ∀ s ∈ logSeq, s = E.length) :
    ∃ c, (catchUpFromLog x.dir t logSeq).run.run w = (.ok (D, c), w) ∧
      (c = 0 → D = { t with lastSeq := D.lastSeq }) := by
  have hlast : t.lastSeq = k := hl.rebuild_lastSeq hk ht
  have hpos : 0 < k := by
    rcases Nat.eq_zero_or_pos k with rfl | hpos
    · simp [Trace.rebuild] at ht
    · exact hpos
  -- once the log's last number `E.length` is known, the events past the snapshot are applied
  have hrest : ∃ c, ((if E.length ≤ t.lastSeq then pure (t, 0) else do
      let events ← storeIo ((⟨x.dir⟩ : EventLog).readFrom (t.lastSeq + 1))
      pure (t.catchUp events)) : WorldE StoreError (Trace × Nat)).run.run w = (.ok (D, c), w) ∧
      (c = 0 → D = { t with lastSeq := D.lastSeq }) := by
    by_cases hfull : E.length ≤ t.lastSeq
    · have hkE : k = E.length := by omega
      rw [if_pos hfull]
      rw [hkE, List.take_length, hD] at ht
      cases ht
      exact ⟨0, rfl, fun _ => rfl⟩
    · have hread : ((⟨x.dir⟩ : EventLog).readFrom (t.lastSeq + 1)).run.run w =
          (.ok (E.drop k), w) := by
        rw [EventLog.readFrom_whole hshows hl.storable, hlast, hl.filter_seq_ge]
      have hcaught := Trace.foldl_catchUpStep_drop hl.sorted hD (E.length - k) k
        (by omega) hpos t 0 ht
      rw [if_neg hfull, WorldE.run_bind, RunFiles.storeIo_run_ok hread]
      dsimp only
      rw [Trace.catchUp, hcaught]
      refine ⟨_, rfl, fun hzero => ?_⟩
      have hkept := Trace.foldl_catchUpStep_of_count_eq (E.drop k) (t, 0)
      rw [hcaught] at hkept
      exact hkept hzero
  have hlastSeq : (EventLog.lastSeq ⟨x.dir⟩).run.run w = (.ok E.length, w) := by
    rw [EventLog.lastSeq_whole hshows hl.storable hl.sorted_le hl.pos,
      hl.last_seq]
  unfold catchUpFromLog
  rw [if_neg (by omega)]
  cases logSeq with
  | some s =>
    obtain rfl := hseq s rfl
    exact hrest
  | none =>
    rw [WorldE.run_bind, RunFiles.storeIo_run_ok hlastSeq]
    exact hrest

/-- What a store reads of a run: its log reads as the whole lines of `E`, and its snapshot as the
trace rebuilt from a first part of them. -/
structure RunReads (x : RunSite) (E : List Event) (d : Disk) (cwd : List String) : Prop where
  log : d.read cwd x.log.path = .ok (wholeBytes E)
  snapshot : ∃ k ≤ E.length, ∃ t : Trace, Trace.rebuild (E.take k) = some t ∧
    d.read cwd (Path.join x.dir traceFileName) = .ok t.fileText.toUTF8.toList

/-- Loading a run whose snapshot and log read so gives the trace rebuilt from the whole log. -/
theorem RunReads.loadRun_run {x : RunSite} {w : World} {E : List Event}
    (h : RunReads x E w.disk w.cwd) (hl : Logged E) {logSeq : Option Nat}
    (hseq : ∀ s ∈ logSeq, s = E.length) :
    (loadRun x.dir logSeq).run.run w = (.ok (Trace.rebuild E), w) := by
  obtain ⟨k, hk, t, ht, hread⟩ := h.snapshot
  obtain ⟨m, hmeta, hm⟩ := metadata_of_read h.log
  have hne : E ≠ [] := by
    rintro rfl
    simp [Trace.rebuild] at ht
  obtain ⟨D, hD⟩ := hl.rebuild_isSome hne
  obtain ⟨c, hc, -⟩ := (show x.log.Shows w E from .inl ⟨m, hmeta, hm⟩).catchUpFromLog_run hl hk ht
    hD hseq
  unfold loadRun
  rw [WorldE.run_bind, onDisk_lift_run, hread]
  dsimp only
  rw [Json.Trace.fileText_reads_back (hl.trace_storable ht)]
  dsimp only
  rw [WorldE.run_bind, hc, hD]
  rfl

namespace RunFiles

variable {x : RunSite} {w w' : World} {E E' : List Event} {n : Nat}

theorem runReads (h : RunFiles x w E n) {b : List UInt8}
    (hb : w.disk.read w.cwd (Path.join x.dir traceFileName) = .ok b) : RunReads x E w.disk w.cwd := by
  obtain ⟨m', hmeta', -⟩ := metadata_of_read hb
  rcases h.trace_metadata with hnone | ⟨k, hk, t, m, ht, hfile, hm⟩
  · rw [hnone] at hmeta'
    cases hmeta'
  have hne : E ≠ [] := by
    rintro rfl
    simp [Trace.rebuild] at ht
  refine ⟨h.read_log hne, k, hk.trans h.bound, t, ht, ?_⟩
  simp [Disk.read, hfile, hm, bind, Except.bind, pure, Except.pure]

/-- Loading the run gives the trace rebuilt from the whole log: the snapshot caught up with the
log, or the log alone where there is no snapshot. -/
theorem loadRun_run (h : RunFiles x w E n) {logSeq : Option Nat}
    (hseq : ∀ s ∈ logSeq, s = E.length) :
    (loadRun x.dir logSeq).run.run w = (.ok (Trace.rebuild E), w) := by
  rcases h.trace_metadata with hnone | ⟨k, hk, t, m, ht, hfile, hm⟩
  · have hread : w.disk.read w.cwd (Path.join x.dir traceFileName) = .error .notFound := by
      simp [Disk.read, hnone, bind, Except.bind]
    unfold loadRun
    rw [WorldE.run_bind, onDisk_lift_run, hread]
    dsimp only
    rw [WorldE.run_bind, storeIo_run_ok h.readAll_run]
    rfl
  · have hread : w.disk.read w.cwd (Path.join x.dir traceFileName) =
        .ok t.fileText.toUTF8.toList := by
      simp [Disk.read, hfile, hm, bind, Except.bind, pure, Except.pure]
    exact (h.runReads hread).loadRun_run h.logged hseq

/-- The run is taken exactly when its log holds an event: a snapshot is there only then. -/
theorem runTaken_run (h : RunFiles x w E n) :
    (Store.runTaken x.dir).run.run w = (.ok (!E.isEmpty), w) := by
  unfold Store.runTaken
  rw [WorldE.run_bind]
  simp only [pathExists, onDisk_liftM_run]
  rcases h.trace_metadata with hnone | ⟨k, hk, t, m, ht, hfile, -⟩
  · have hexists : w.disk.exists_ w.cwd (Path.join x.dir traceFileName) = false := by
      simp [Disk.exists_, hnone, Except.toBool]
    rw [hexists]
    have hlastSeq : (EventLog.lastSeq ⟨x.dir⟩).run.run w = (.ok E.length, w) := by
      rw [EventLog.lastSeq_whole h.shows h.logged.storable h.logged.sorted_le h.logged.pos,
        h.logged.last_seq]
    rw [if_neg Bool.false_ne_true, WorldE.run_bind, storeIo_run_ok hlastSeq]
    cases E <;> rfl
  · have hexists : w.disk.exists_ w.cwd (Path.join x.dir traceFileName) = true := by
      simp [Disk.exists_, hfile, Except.toBool]
    have hne : E ≠ [] := by
      rintro rfl
      simp [Trace.rebuild] at ht
    rw [hexists]
    cases E with
    | nil => exact absurd rfl hne
    | cons e rest => rfl

/-! ## Writing the run -/

/-- Replacing the snapshot, where the run's directory is there and its owner may change it, puts
the text at its place. -/
theorem replace_trace (h : RunFiles x w E n) {m₀ : Nat}
    (hrun : w.disk.get? x.runPlace = some (.dir m₀)) (hm₀ : canChange m₀) (bytes : List UInt8) :
    w.disk.replace w.cwd x.dir traceFileName bytes =
      .ok (w.disk.put (x.filePlace traceFileName) (.file bytes privateMode)) := by
  obtain ⟨m', hproject⟩ := h.project_of_run hrun
  have hmeta : w.disk.metadata w.cwd x.dir = .ok (.dir m₀) :=
    metadata_of_get? (x.locate_dir h.root hproject) hrun
  have hloc := x.locate_file h.root hproject hrun plain_traceFileName short_traceFileName
  simp only [replace, hmeta, hloc, hm₀, if_true, bind, Except.bind, pure, Except.pure]
  rcases h.trace with hnone | ⟨k, -, t', m, -, hfile, -⟩
  · rw [hnone]
  · rw [hfile]

/-- Where the owner may not change the run's directory, replacing the snapshot is refused. -/
theorem replace_trace_denied (h : RunFiles x w E n) {m₀ : Nat}
    (hrun : w.disk.get? x.runPlace = some (.dir m₀)) (hm₀ : canChange m₀ = false)
    (bytes : List UInt8) :
    w.disk.replace w.cwd x.dir traceFileName bytes = .error .permissionDenied := by
  obtain ⟨m', hproject⟩ := h.project_of_run hrun
  have hmeta : w.disk.metadata w.cwd x.dir = .ok (.dir m₀) :=
    metadata_of_get? (x.locate_dir h.root hproject) hrun
  simp only [replace, hmeta, hm₀, Bool.false_eq_true, if_false, bind, Except.bind, throw,
    throwThe, MonadExceptOf.throw]

/-- Writing the snapshot, where the run's directory is there, fails with an error of the disk or
the serializer and changes nothing, or puts the trace's text at its place. -/
theorem writeTrace_run (h : RunFiles x w E n) {m₀ : Nat}
    (hrun : w.disk.get? x.runPlace = some (.dir m₀)) (t : Trace) :
    let r := (writeTrace x.dir t).run.run w
    w.Writes r.2 ∧ ((r.2.disk = w.disk ∧ ∃ err, r.1 = .error err ∧ err.IsIo) ∨
      (r.2.disk = w.disk.put (x.filePlace traceFileName) (.file t.fileText.toUTF8.toList privateMode) ∧
        r.1 = .ok ())) := by
  intro r
  have hr : r = (writeTrace x.dir t).run.run w := rfl
  unfold writeTrace at hr
  rw [WorldE.run_bind, lift_ioCheck_run, ioCheck_run] at hr
  by_cases hp : w.pending.isSome
  · simp only [hp, if_true] at hr
    rw [WorldE.run_bind, WorldE.run_throw] at hr
    rw [hr]
    exact ⟨World.Writes.advance w, .inl ⟨rfl, _, rfl, trivial⟩⟩
  simp only [hp, Bool.false_eq_true, if_false] at hr
  rw [storeIo_run, changeDisk_run] at hr
  by_cases hp₁ : w.advance.pending.isSome
  · simp only [hp₁, if_true] at hr
    rw [hr]
    exact ⟨(World.Writes.advance w).trans (World.Writes.advance _), .inl ⟨rfl, _, rfl, trivial⟩⟩
  · simp only [hp₁, Bool.false_eq_true, if_false] at hr
    cases hm₀ : canChange m₀
    · rw [applyDisk_run_error (replace_trace_denied h hrun hm₀ _)] at hr
      rw [hr]
      exact ⟨(World.Writes.advance w).trans (World.Writes.advance _), .inl ⟨rfl, _, rfl, trivial⟩⟩
    rw [applyDisk_run_ok (replace_trace h hrun hm₀ _)] at hr
    rw [hr]
    exact ⟨(World.Writes.advance w).trans ((World.Writes.advance _).trans (World.Writes.setDisk _ _)),
      .inr ⟨rfl, rfl⟩⟩

theorem writeTrace_ok (h : RunFiles x w E n) {m₀ : Nat}
    (hrun : w.disk.get? x.runPlace = some (.dir m₀)) (hm₀ : canChange m₀) (hfaults : w.faults = [])
    (t : Trace) :
    (writeTrace x.dir t).run.run w =
      (.ok (), { w with
        disk := w.disk.put (x.filePlace traceFileName) (.file t.fileText.toUTF8.toList privateMode) }) := by
  unfold writeTrace
  rw [WorldE.run_bind, lift_ioCheck_run, ioCheck_run, World.pending_of_faults_nil hfaults,
    World.advance_of_faults_nil hfaults]
  simp only [Option.isSome_none, Bool.false_eq_true, if_false]
  rw [storeIo_run, changeDisk_run, World.pending_of_faults_nil hfaults,
    World.advance_of_faults_nil hfaults]
  simp only [Option.isSome_none, Bool.false_eq_true, if_false]
  rw [applyDisk_run_ok (replace_trace h hrun hm₀ _)]
  rfl

/-- Appending an event numbered next, where the run's directory is there, leaves the log as it
was, failing on the disk, or one event longer, failing or not; the snapshot and the memories know
at most the old log. -/
theorem appendAt_run (h : RunFiles x w E n) {m₀ : Nat}
    (hrun : w.disk.get? x.runPlace = some (.dir m₀)) {e : Event} {seq : Nat}
    (hlogged : Logged (E ++ [{ e with seq }])) :
    let r := (x.log.appendAt e seq).run.run w
    w.Writes r.2 ∧
      ((RunFiles x r.2 E n ∧ ∃ err, r.1 = .error err) ∨
        (RunFiles x r.2 (E ++ [{ e with seq }]) n ∧
          (r.1 = .ok { e with seq } ∨ r.1 = .error .noSpace))) := by
  dsimp only
  obtain ⟨hw, hcases⟩ := (h.whole hrun).appendAt_run h.noTears e seq
  refine ⟨hw, ?_⟩
  rcases hcases with ⟨hdisk, herr⟩ | ⟨⟨m, hdisk, hm⟩, hres⟩
  · exact .inl ⟨h.writes hw hdisk, herr⟩
  · have hn : n ≤ (E ++ [{ e with seq }]).length := by
      have := h.bound
      rw [List.length_append]
      omega
    exact .inr ⟨h.setLog hrun hlogged hn (List.take_append_of_le_length h.bound) hm hdisk (World.Writes.cwd hw)
      (World.Writes.tails hw) (h.noTears.writes hw), hres⟩

/-- Cutting the log back to the bytes of its first events, which hold all the snapshot and the
memories know of, leaves it as it was or holding just those events. -/
theorem truncate_run {F : List Event} (h : RunFiles x w (E ++ F) n) (hn : n ≤ E.length) {m₀ : Nat}
    (hrun : w.disk.get? x.runPlace = some (.dir m₀)) :
    let r := (x.log.truncate (wholeBytes E).length).run.run w
    w.Writes r.2 ∧ (RunFiles x r.2 (E ++ F) n ∨ RunFiles x r.2 E n) := by
  dsimp only
  obtain ⟨hw, hcases⟩ := (h.whole hrun).truncate_run
  refine ⟨hw, ?_⟩
  rcases hcases with hdisk | ⟨m, hdisk, hm⟩
  · exact .inl (h.writes hw hdisk)
  · exact .inr (h.setLog hrun h.logged.of_append hn
      (by rw [List.take_append_of_le_length (hn.trans (le_refl _))]) hm hdisk hw.cwd hw.tails
      (h.noTears.writes hw))

/-- Making the run's directory and its empty log, on a log without events, fails on the disk or
makes them; either way the invariant holds. -/
theorem createRunLog_run (h : RunFiles x w [] n) :
    let r := (createRunLog x.dir).run.run w
    w.Writes r.2 ∧ RunFiles x r.2 [] n ∧
      (r.1 = .ok () → ∃ m, r.2.disk.get? x.runPlace = some (.dir m)) := by
  dsimp only
  unfold createRunLog
  rw [WorldE.run_bind, changeDisk_run]
  by_cases hp : w.pending.isSome
  · simp only [hp, if_true]
    exact ⟨World.Writes.advance w, h.writes (World.Writes.advance w) rfl, fun hok => by cases hok⟩
  simp only [hp, Bool.false_eq_true, if_false]
  obtain ⟨mR, hR⟩ := h.rootDir
  rcases createDirAll_run h.root hR x.project_plain x.project_short x.run_plain x.run_short
    h.project h.runDir h.order with ⟨d', hmk, hproject, hrun, hother⟩ | hdenied
  swap
  · rw [applyDisk_run_error (f := fun d cwd => d.createDirAll cwd x.dir) (w := w.advance) hdenied]
    exact ⟨World.Writes.advance w, h.writes (World.Writes.advance w) rfl, fun hok => by cases hok⟩
  rw [applyDisk_run_ok (f := fun d cwd => d.createDirAll cwd x.dir) (w := w.advance) hmk]
  dsimp only
  have hw₁ : w.Writes { w.advance with disk := d' } :=
    (World.Writes.advance w).trans (World.Writes.setDisk _ _)
  have h₁ : RunFiles x { w.advance with disk := d' } [] n :=
    h.makeDirs hproject hrun hother rfl rfl rfl (h.noTears.writes hw₁)
  obtain ⟨mrun, hrun₁⟩ := hrun
  rw [changeDisk_run]
  by_cases hp₁ : (World.pending { w.advance with disk := d' }).isSome
  · simp only [hp₁, if_true]
    exact ⟨hw₁.trans (World.Writes.advance _), h₁.writes (World.Writes.advance _) rfl,
      fun hok => by cases hok⟩
  simp only [hp₁, Bool.false_eq_true, if_false]
  rcases (h₁.whole (m := mrun) hrun₁).append_disk [] with ⟨m, happ, hm⟩ | ⟨-, hdenied⟩
  swap
  · rw [applyDisk_run_error (f := fun d cwd => d.append cwd (Path.join x.dir eventsFileName) [])
      (w := ({ w.advance with disk := d' } : World).advance) hdenied]
    exact ⟨hw₁.trans (World.Writes.advance _), h₁.writes (World.Writes.advance _) rfl,
      fun hok => by cases hok⟩
  rw [List.append_nil] at happ
  rw [applyDisk_run_ok (f := fun d cwd => d.append cwd (Path.join x.dir eventsFileName) [])
    (w := ({ w.advance with disk := d' } : World).advance) happ]
  have hw₂ : { w.advance with disk := d' }.Writes
      { ({ w.advance with disk := d' } : World).advance with
        disk := d'.put (x.filePlace eventsFileName) (.file (wholeBytes []) m) } :=
    (World.Writes.advance _).trans (World.Writes.setDisk _ _)
  refine ⟨hw₁.trans hw₂, ?_, fun _ => ⟨mrun, ?_⟩⟩
  · exact h₁.setLog hrun₁ h.logged h.bound rfl hm rfl rfl rfl (h₁.noTears.writes hw₂)
  · show (d'.put (x.filePlace eventsFileName) _).get? x.runPlace = _
    rw [get?_put_ne _ (x.filePlace_ne_runPlace _).symm]
    exact hrun₁

/-- With nothing scheduled, below a root its owner may change and without the project's directory,
the run's directories and its empty log are made. -/
theorem createRunLog_fresh (h : RunFiles x w [] n) (hfaults : w.faults = [])
    (hproject : w.disk.get? x.projectPlace = none)
    (hroot : ∀ m, w.disk.get? x.rootPlace = some (.dir m) → canChange m) :
    ∃ w', (createRunLog x.dir).run.run w = (.ok (), w') ∧ w'.faults = [] ∧
      w'.disk.get? x.runPlace = some (.dir dirMode) := by
  obtain ⟨mR, hR⟩ := h.rootDir
  have hrun := h.order hproject
  have hmk := createDirAll_fresh h.root hR (hroot mR hR) x.project_plain x.project_short
    x.run_plain x.run_short hproject hrun
  set d' := (w.disk.put x.projectPlace (.dir dirMode)).put x.runPlace (.dir dirMode) with hd'
  have hne : x.runPlace ≠ x.projectPlace := by simp [RunSite.runPlace, RunSite.projectPlace]
  have hrun₁ : d'.get? x.runPlace = some (.dir dirMode) := get?_put_self _ (by simp [RunSite.runPlace])
  have h₁ : RunFiles x { w with disk := d' } [] n :=
    h.makeDirs ⟨dirMode, by rw [hd', get?_put_ne _ hne.symm, get?_put_self _ (by simp [RunSite.projectPlace])]⟩
      ⟨dirMode, hrun₁⟩ (fun q hqp hqr => by rw [hd', get?_put_ne _ hqr, get?_put_ne _ hqp]) rfl rfl rfl
      (h.noTears.writes (World.Writes.setDisk _ _))
  obtain ⟨m, happ, -⟩ := (h₁.whole hrun₁).append_disk_of_canChange (fun m hm => by
    rw [x.filePlace_dropLast, hrun₁] at hm
    cases hm
    exact canChange_dirMode) []
  unfold createRunLog
  rw [WorldE.run_bind]
  simp only [changeDisk_run, World.pending_of_faults_nil, World.advance_of_faults_nil, hfaults,
    Option.isSome_none, Bool.false_eq_true, if_false]
  rw [applyDisk_run_ok (f := fun d cwd => d.createDirAll cwd x.dir) (w := w) hmk]
  dsimp only
  simp only [World.pending_of_faults_nil, World.advance_of_faults_nil, hfaults,
    Option.isSome_none, Bool.false_eq_true, if_false]
  refine ⟨_, applyDisk_run_ok (f := fun d cwd => d.append cwd (Path.join x.dir eventsFileName) [])
    happ, rfl, ?_⟩
  show (d'.put (x.filePlace eventsFileName) _).get? x.runPlace = _
  rw [get?_put_ne _ (x.filePlace_ne_runPlace _).symm]
  exact hrun₁

/-- Committing after the append of `ev`: the snapshot of the longer log is written and the log's
size and number remembered; or the serializer or the disk fails, the memory is dropped, and the
append is undone or left. -/
theorem commit_run {ev : Event} (h : RunFiles x w (E ++ [ev]) E.length) {m₀ : Nat}
    (hrun : w.disk.get? x.runPlace = some (.dir m₀)) (id : Nat) {t : Trace}
    (ht : Trace.rebuild (E ++ [ev]) = some t) :
    let r := (Store.commit (x.key id) x.log x.dir t (wholeBytes E).length).run.run w
    r.2.clock = w.clock ∧
      ((r.1 = .ok () ∧ RunFiles x r.2 (E ++ [ev]) (E.length + 1)) ∨
        ∃ err, r.1 = .error err ∧ err.IsIo ∧
          (RunFiles x r.2 E E.length ∨ RunFiles x r.2 (E ++ [ev]) (E.length + 1))) := by
  dsimp only
  have hlen : (E ++ [ev]).length = E.length + 1 := by simp
  have hlast : t.lastSeq = E.length + 1 :=
    h.logged.rebuild_lastSeq (k := E.length + 1) hlen.ge (by rwa [← hlen, List.take_length])
  obtain ⟨hw, hcases⟩ := h.writeTrace_run hrun t
  unfold Store.commit
  rw [WorldE.run_bind, WorldE.lift_run]
  rcases hcases with ⟨hdisk, err, herr, hio⟩ | ⟨hdisk, hok⟩
  · -- the snapshot failed: forget the tail, cut the log back, pass the failure on
    rw [herr]
    dsimp only
    rw [WorldE.run_bind, WorldE.liftM_run]
    dsimp only
    rw [WorldE.run_bind, WorldE.lift_run]
    dsimp only
    set w₁ := ((writeTrace x.dir t).run.run w).2 with hw₁
    have h₁ : RunFiles x w₁ (E ++ [ev]) E.length := h.writes hw hdisk
    have hrun₁ : w₁.disk.get? x.runPlace = some (.dir m₀) := by
      rw [hdisk]
      exact hrun
    set w₂ := ((rememberTail (x.key id) none).run w₁).2 with hw₂
    have h₂ : RunFiles x w₂ (E ++ [ev]) E.length := h₁.setTail id fun _ hnone => by cases hnone
    obtain ⟨hw₃, hcut⟩ := h₂.truncate_run (le_refl _) hrun₁
    rw [WorldE.run_throw]
    refine ⟨hw₃.clock.trans hw.clock, .inr ⟨err, rfl, hio, ?_⟩⟩
    rcases hcut with hkeep | hcut
    · exact .inr (hkeep.mono (Nat.le_succ _) hlen.ge)
    · exact .inl hcut
  · -- the snapshot is written: remember the longer log
    rw [hok]
    dsimp only
    set w₁ := ((writeTrace x.dir t).run.run w).2 with hw₁
    have h₁ : RunFiles x w₁ (E ++ [ev]) (E.length + 1) :=
      (h.mono (Nat.le_succ _) hlen.ge).setTrace hrun (k := E.length + 1) (le_refl _)
        (by rwa [← hlen, List.take_length]) canRead_privateMode hdisk hw.cwd hw.tails
        (h.noTears.writes hw)
    rw [WorldE.run_bind, storeIo_run_ok h₁.byteLen_run]
    dsimp only
    rw [WorldE.liftM_run]
    dsimp only
    refine ⟨hw.clock, .inl ⟨rfl, h₁.setTail id ?_⟩⟩
    rintro tail ⟨⟩
    exact ⟨E.length + 1, le_refl _, by rw [hlast, ← hlen, List.take_length]⟩

theorem commit_ok {ev : Event} (h : RunFiles x w (E ++ [ev]) E.length) {m₀ : Nat}
    (hrun : w.disk.get? x.runPlace = some (.dir m₀)) (hm₀ : canChange m₀) (hfaults : w.faults = [])
    (id : Nat) {t : Trace} (ht : Trace.rebuild (E ++ [ev]) = some t) :
    ∃ w', (Store.commit (x.key id) x.log x.dir t (wholeBytes E).length).run.run w = (.ok (), w') ∧
      w'.faults = [] ∧
      w'.disk = w.disk.put (x.filePlace traceFileName) (.file t.fileText.toUTF8.toList privateMode) := by
  have hlen : (E ++ [ev]).length = E.length + 1 := by simp
  have h₁ : RunFiles x { w with
      disk := w.disk.put (x.filePlace traceFileName) (.file t.fileText.toUTF8.toList privateMode) }
      (E ++ [ev]) (E.length + 1) :=
    (h.mono (Nat.le_succ _) hlen.ge).setTrace hrun (k := E.length + 1) (le_refl _)
      (by rwa [← hlen, List.take_length]) canRead_privateMode rfl rfl rfl
      (h.noTears.writes (World.Writes.setDisk _ _))
  unfold Store.commit
  rw [WorldE.run_bind, WorldE.lift_run, h.writeTrace_ok hrun hm₀ hfaults t]
  dsimp only
  rw [WorldE.run_bind, storeIo_run_ok h₁.byteLen_run]
  dsimp only
  rw [WorldE.liftM_run]
  exact ⟨_, rfl, hfaults, rfl⟩

end RunFiles

end RunJournal
