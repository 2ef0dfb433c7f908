import RunJournal.Proofs.RunFiles
import RunJournal.Proofs.Widths
/-!
# What each writing call does to a run's files

Every call that writes a run, from files that satisfy `RunFiles` with the whole log known, leaves
files that satisfy it again, over a log changed in one of three ways (`Changed`): the call returned
and appended one event of its own; or it failed and left the log as it was; or it failed on the
disk or in the serializer after its append, which the rollback did not undo. A call that returns a
trace returns the one the new log rebuilds.

The calls are taken apart in the order they run, each piece by its own lemma of `RunFiles`: the
lock and the approval check pass, the current tail is the log's, the run loads as the log's trace,
and then the append and the commit (`RunFiles.append_commit_run`) either write the longer log and
its snapshot or fail in one of the ways above.
-/

namespace RunJournal

def Instant.after (t : Instant) : Nat → Instant
  | 0 => t
  | k + 1 => (t.after k).addMicros 1

@[simp] theorem Instant.after_zero (t : Instant) : t.after 0 = t := rfl

theorem Instant.after_succ (t : Instant) (k : Nat) : t.after (k + 1) = (t.after k).addMicros 1 :=
  rfl

theorem Instant.after_one (t : Instant) : t.after 1 = t.addMicros 1 := rfl

theorem Instant.after_add (t : Instant) (j k : Nat) : t.after (j + k) = (t.after j).after k := by
  induction k with
  | zero => rfl
  | succ k ih => rw [← Nat.add_assoc, after_succ, ih, after_succ]

/-- How a call left a log holding `E`: it returned `a` after appending one event with `P`, and `a`
agrees with the new log as `Q` says; or it failed and left the log as it was; or it failed on the
disk or in the serializer after appending one such event. -/
inductive Changed {α : Type} (P : Event → Prop) (Q : α → List Event → Prop) (E : List Event) :
    Except StoreError α → List Event → Prop
  | appended {a : α} {ev : Event} : P ev → Q a (E ++ [ev]) → Changed P Q E (.ok a) (E ++ [ev])
  | kept {err : StoreError} : Changed P Q E (.error err) E
  | left {err : StoreError} {ev : Event} : err.IsIo → P ev → Changed P Q E (.error err) (E ++ [ev])

/-- A trace returned by a call is the one its new log rebuilds. -/
def Rebuilds (t : Trace) (E : List Event) : Prop := Trace.rebuild E = some t

/-- What a call that writes the run `x` leaves, from a log holding `E` and a clock at `c`: the
clock read at most `k` times, and files that satisfy the invariant over a log changed as
`Changed` says. -/
def Leaves {α : Type} (x : RunSite) (c : Instant) (E : List Event) (k : Nat) (P : Event → Prop)
    (Q : α → List Event → Prop) (r : Except StoreError α × World) : Prop :=
  (∃ j ≤ k, r.2.clock = c.after j) ∧ ∃ E', RunFiles x r.2 E' E'.length ∧ Changed P Q E r.1 E'

theorem Leaves.after {α : Type} {x : RunSite} {c c' : Instant} {E : List Event} {k j : Nat}
    {P : Event → Prop} {Q : α → List Event → Prop} {r : Except StoreError α × World}
    (h : Leaves x c' E k P Q r) (hc : c' = c.after j) : Leaves x c E (j + k) P Q r := by
  obtain ⟨⟨i, hi, hclock⟩, rest⟩ := h
  refine ⟨⟨j + i, by omega, ?_⟩, rest⟩
  rw [hclock, hc, Instant.after_add]

/-! ## Running a call one piece at a time -/

section Stepping

variable {ε α β : Type}

theorem WorldE.bind_run_ok {x : WorldE ε α} {f : α → WorldE ε β} {w w' : World} {a : α}
    (hx : x.run.run w = (.ok a, w')) : (x >>= f).run.run w = (f a).run.run w' := by
  rw [WorldE.run_bind, hx]

theorem WorldE.bind_run_error {x : WorldE ε α} {f : α → WorldE ε β} {w w' : World} {e : ε}
    (hx : x.run.run w = (.error e, w')) : (x >>= f).run.run w = (.error e, w') := by
  rw [WorldE.run_bind, hx]

end Stepping

theorem Store.newEvent_run (runId : String) (agentId : Option String) (kind : EventKind)
    (w : World) :
    (Store.newEvent runId agentId kind).run w =
      ({ seq := 0, time := w.clock, runId, projectId := none, agentId,
         correlationId := "00000000-0000-4000-8000-" ++ hexLower (w.ids + 1) 12, kind },
       { w with clock := w.clock.addMicros 1, ids := w.ids + 1 }) := rfl

theorem RunSite.mk_dir_eq_log (x : RunSite) : (⟨x.dir⟩ : EventLog) = x.log := rfl

theorem RunSite.tuple_eq_key (x : RunSite) (id : Nat) :
    ((id, x.project, x.run) : TailKey) = x.key id := rfl

theorem Logged.rebuild_append {E : List Event} (h : Logged E) {t t' : Trace} {e : Event}
    (hD : Trace.rebuild E = some t) (happ : t.apply e = .ok t') :
    Trace.rebuild (E ++ [{ e with seq := E.length + 1 }]) = some { t' with lastSeq := E.length + 1 } := by
  have hne : E ≠ [] := by
    rintro rfl
    simp [Trace.rebuild] at hD
  rw [Trace.rebuild_snoc hne, hD, Option.map_some,
    Trace.applyLogged_of_ok (by rw [Trace.apply_withSeq]; exact happ),
    h.rebuild_lastSeq le_rfl (by rw [List.take_length]; exact hD)]
  simp

theorem Trace.rebuild_start {ev : Event} {name : String} {specs : List AgentSpec} {exec : Execution}
    (hk : ev.kind = .runStarted name specs exec) :
    Trace.rebuild [ev] =
      some { Trace.new ev.runId (ev.projectId.getD "") name specs exec ev.time with lastSeq := ev.seq } := by
  simp [Trace.rebuild, hk]

namespace RunFiles

variable {x : RunSite} {w : World} {E : List Event}

/-- Appending an event numbered next and committing the trace the longer log rebuilds: the call
returns that trace, or fails with the log as it was or one event longer. -/
theorem append_commit_run (h : RunFiles x w E E.length) {m₀ : Nat}
    (hrun : w.disk.get? x.runPlace = some (.dir m₀)) (id : Nat) {T : Trace} {e : Event} (n : Nat)
    (hn : E.length + 1 = n) (ht : Trace.rebuild (E ++ [{ e with seq := n }]) = some { T with lastSeq := n })
    (hlogged : Logged (E ++ [{ e with seq := n }])) (P : Event → Prop) (hP : P { e with seq := n }) :
    Leaves x w.clock E 0 P Rebuilds ((storeIo (x.log.appendAt e n) >>= fun written =>
      Store.commit (x.key id) x.log x.dir { T with lastSeq := written.seq } (wholeBytes E).length >>=
        fun _ => (pure { T with lastSeq := written.seq } : WorldE StoreError Trace)).run.run w) := by
  subst hn
  set ev : Event := { e with seq := E.length + 1 } with hev
  have hlen : (E ++ [ev]).length = E.length + 1 := by simp
  obtain ⟨hw, hcases⟩ := h.appendAt_run hrun hlogged
  rcases hra : (x.log.appendAt e (E.length + 1)).run.run w with ⟨ra, wa⟩
  rw [hra] at hw hcases
  dsimp only at hw hcases ⊢
  rcases hcases with ⟨h₁, err, rfl⟩ | ⟨h₁, rfl | rfl⟩
  · rw [WorldE.bind_run_error (storeIo_run_error hra)]
    exact ⟨⟨0, le_rfl, hw.clock⟩, E, h₁, .kept⟩
  · rw [WorldE.bind_run_ok (storeIo_run_ok hra)]
    obtain ⟨m₁, hrun₁⟩ := h₁.runDir_of_ne_nil (by simp)
    obtain ⟨hclock, hcommit⟩ := h₁.commit_run hrun₁ id ht
    rcases hc : (Store.commit (x.key id) x.log x.dir { T with lastSeq := ev.seq }
      (wholeBytes E).length).run.run wa with ⟨rc, wc⟩
    rw [hc] at hclock hcommit
    dsimp only at hclock hcommit
    rcases hcommit with ⟨rfl, h₂⟩ | ⟨err, rfl, hio, h₂ | h₂⟩
    · rw [WorldE.bind_run_ok hc]
      exact ⟨⟨0, le_rfl, hclock.trans hw.clock⟩, E ++ [ev], by rwa [hlen], .appended hP ht⟩
    · rw [WorldE.bind_run_error hc]
      exact ⟨⟨0, le_rfl, hclock.trans hw.clock⟩, E, h₂, .kept⟩
    · rw [WorldE.bind_run_error hc]
      exact ⟨⟨0, le_rfl, hclock.trans hw.clock⟩, E ++ [ev], by rwa [hlen], .left hio hP⟩
  · -- the event is in the log, but the append reported a failure
    rw [WorldE.bind_run_error (storeIo_run_error hra)]
    exact ⟨⟨0, le_rfl, hw.clock⟩, E ++ [ev], h₁.mono (by simp) le_rfl, .left trivial hP⟩

/-- A change through `mutate`: refused without writing where the run is missing or the trace
refuses the event, else the event is appended with the next number and committed. The clock is
read once, for the event, once the run is found. -/
theorem mutate_run (h : RunFiles x w E E.length) {s : Store} (hs : s.root = x.root)
    (hshort : E.length + 1 < wordMax) (agentId : Option String) (kind : EventKind)
    (hkind : kind.Storable) (hclock : w.clock.Reparses) :
    Leaves x w.clock E 1 (fun ev => ev.runId = x.run ∧ ev.agentId = agentId ∧ ev.kind = kind) Rebuilds
      ((s.mutate x.run x.project agentId kind).run.run w) := by
  have hrem : ((liftM (rememberedTail (s.id, x.project, x.run)) : WorldE StoreError _).run.run w).1
      = .ok (w.tailOf (x.key s.id)) := rfl
  unfold Store.mutate
  rw [x.runDir_eq hs, (rememberedTail_reads _).run_bind_ok hrem,
    WorldE.bind_run_ok (storeIo_run_ok h.lockRun_run), WorldE.bind_run_ok (h.ensureUnlocked_run _)]
  dsimp only
  rw [WorldE.bind_run_ok (h.currentTail_run fun t ht => h.tails s.id t ht),
    WorldE.bind_run_ok (h.loadRun_run (by simp))]
  dsimp only
  cases hD : Trace.rebuild E with
  | none => exact ⟨⟨0, by omega, rfl⟩, E, h, .kept⟩
  | some t =>
    dsimp only
    rw [WorldE.bind_run_ok (WorldE.liftM_run _ _), Store.newEvent_run]
    dsimp only
    set ev₀ : Event :=
      { seq := 0, time := w.clock, runId := x.run, projectId := none, agentId,
        correlationId := "00000000-0000-4000-8000-" ++ hexLower (w.ids + 1) 12, kind } with hev₀
    set w₁ : World := { w with clock := w.clock.addMicros 1, ids := w.ids + 1 } with hw₁
    have h₁ : RunFiles x w₁ E E.length := h.keep rfl rfl rfl h.noTears
    have hclock₁ : w₁.clock = w.clock.after 1 := rfl
    cases happ : t.apply ev₀ with
    | error err =>
      dsimp only
      rw [WorldE.bind_run_error (WorldE.run_throw _ _)]
      exact ⟨⟨1, le_rfl, hclock₁⟩, E, h₁, .kept⟩
    | ok t' =>
      dsimp only
      rw [WorldE.bind_run_ok (WorldE.run_pure _ _)]
      have hne : E ≠ [] := by
        rintro rfl
        simp [Trace.rebuild] at hD
      have hlast : t'.lastSeq = E.length := by
        rw [Trace.lastSeq_of_apply happ]
        exact h.logged.rebuild_lastSeq le_rfl (by rw [List.take_length]; exact hD)
      have hseq : wordSucc (max E.length t'.lastSeq) = E.length + 1 := by
        rw [hlast, Nat.max_self, wordSucc_eq (by omega), if_pos (by omega)]
      rw [hseq]
      obtain ⟨m₀, hrun⟩ := h₁.runDir_of_ne_nil hne
      have hstore : ({ ev₀ with seq := E.length + 1 } : Event).Storable :=
        ⟨show E.length + 1 ≤ Json.Reader.u64Max by rw [u64Max_eq_wordMax]; omega, hclock, hkind⟩
      have hlogged : Logged (E ++ [{ ev₀ with seq := E.length + 1 }]) :=
        h.logged.snoc rfl hstore (fun hE => absurd hE hne)
          (fun _ => ⟨t, t', hD, (Trace.apply_withSeq t ev₀ _).trans happ⟩) hshort
      rw [x.mk_dir_eq_log, x.tuple_eq_key]
      exact (append_commit_run h₁ hrun s.id (E.length + 1) rfl (h.logged.rebuild_append hD happ)
        hlogged _ ⟨rfl, rfl, rfl⟩).after hclock₁

/-- Completing the run is a change through `mutate` after which the store forgets its tail. -/
theorem completeRun_run (h : RunFiles x w E E.length) {s : Store} (hs : s.root = x.root)
    (hshort : E.length + 1 < wordMax) (status : RunStatus) (hclock : w.clock.Reparses) :
    Leaves x w.clock E 1
      (fun ev => ev.runId = x.run ∧ ev.agentId = none ∧ ev.kind = .runCompleted status) Rebuilds
      ((s.completeRun x.run x.project status).run.run w) := by
  have hm := h.mutate_run hs hshort none (.runCompleted status) trivial hclock
  unfold Store.completeRun
  rcases hr : (s.mutate x.run x.project none (.runCompleted status)).run.run w with ⟨r, w'⟩
  rw [hr] at hm
  obtain ⟨hc, E', h', hch⟩ := hm
  cases r with
  | error err =>
    rw [WorldE.bind_run_error hr]
    exact ⟨hc, E', h', hch⟩
  | ok t =>
    rw [WorldE.bind_run_ok hr, WorldE.bind_run_ok (WorldE.liftM_run _ _), WorldE.run_pure,
      x.tuple_eq_key]
    have hfits : ∀ tail ∈ (none : Option LogTail), Fits E' E'.length tail := fun _ hnone => by
      cases hnone
    exact ⟨hc, E', h'.setTail s.id hfits, hch⟩

theorem startRun_run (h : RunFiles x w E E.length) {s : Store} (hs : s.root = x.root)
    (name : String) (specs : List AgentSpec) (exec : Execution) (hspecs : specs.length ≤ wordMax)
    (hexec : exec.Storable) (hclock : w.clock.Reparses) :
    Leaves x w.clock E 1 (fun ev => ev.runId = x.run ∧ ev.kind = .runStarted name specs exec) Rebuilds
      ((s.startRun x.run x.project name specs exec).run.run w) := by
  unfold Store.startRun
  rw [x.runDir_eq hs, WorldE.bind_run_ok h.runTaken_run]
  dsimp only
  rcases E with _ | ⟨e₁, rest⟩
  case cons =>
    rw [if_pos (show (!(e₁ :: rest).isEmpty) = true from rfl),
      WorldE.bind_run_error (WorldE.run_throw _ _)]
    exact ⟨⟨0, by omega, rfl⟩, e₁ :: rest, h, .kept⟩
  case nil =>
    rw [if_neg (by decide)]
    obtain ⟨hw₁, h₁, hdir⟩ := h.createRunLog_run
    rcases hc : (createRunLog x.dir).run.run w with ⟨rc, w₁⟩
    rw [hc] at hw₁ h₁ hdir
    dsimp only at hw₁ h₁ hdir
    cases rc with
    | error err =>
      rw [WorldE.bind_run_error (storeIo_run_error hc)]
      exact ⟨⟨0, by omega, hw₁.clock⟩, [], h₁, .kept⟩
    | ok u =>
      obtain ⟨m₀, hrun⟩ := hdir rfl
      rw [WorldE.bind_run_ok (storeIo_run_ok hc), WorldE.bind_run_ok h₁.runTaken_run,
        if_neg (by decide), WorldE.bind_run_ok (storeIo_run_ok h₁.byteLen_run),
        WorldE.bind_run_ok (WorldE.liftM_run _ _), Store.newEvent_run]
      dsimp only
      set ev₀ : Event :=
        { seq := 0, time := w₁.clock, runId := x.run, projectId := some x.project, agentId := none,
          correlationId := "00000000-0000-4000-8000-" ++ hexLower (w₁.ids + 1) 12,
          kind := .runStarted name specs exec } with hev₀
      set w₂ : World := { w₁ with clock := w₁.clock.addMicros 1, ids := w₁.ids + 1 } with hw₂
      have h₂ : RunFiles x w₂ [] 0 := h₁.keep rfl rfl rfl h₁.noTears
      have hrun₂ : w₂.disk.get? x.runPlace = some (.dir m₀) := hrun
      have hclock₂ : w₂.clock = w.clock.after 1 := by
        rw [Instant.after_one, ← hw₁.clock]
      have ht : Trace.rebuild ([] ++ [{ ev₀ with seq := 1 }]) =
          some { Trace.new x.run x.project name specs exec w₁.clock with lastSeq := 1 } :=
        Trace.rebuild_start rfl
      have hstore : ({ ev₀ with seq := 1 } : Event).Storable := by
        refine ⟨show 1 ≤ Json.Reader.u64Max by rw [u64Max_eq_wordMax]; decide, ?_, hexec⟩
        show w₁.clock.Reparses
        rw [hw₁.clock]
        exact hclock
      have hlogged : Logged ([] ++ [{ ev₀ with seq := 1 }]) :=
        h.logged.snoc rfl hstore (fun _ => ⟨name, specs, exec, rfl, hspecs⟩) (fun hne => absurd rfl hne)
          (by decide)
      rw [x.mk_dir_eq_log, x.tuple_eq_key]
      exact (append_commit_run h₂ hrun₂ s.id 1 rfl ht hlogged _ ⟨rfl, rfl⟩).after hclock₂

/-- With nothing scheduled, a run started below a root its owner may change, where its project has
no directory yet, returns its trace, and its directory is made with the directory mode. -/
theorem startRun_fresh (h : RunFiles x w [] 0) {s : Store} (hs : s.root = x.root)
    (hfaults : w.faults = []) (hproject : w.disk.get? x.projectPlace = none)
    (hroot : ∀ m, w.disk.get? x.rootPlace = some (.dir m) → Disk.canChange m)
    (name : String) (specs : List AgentSpec) (exec : Execution) (hspecs : specs.length ≤ wordMax)
    (hexec : exec.Storable) (hclock : w.clock.Reparses) :
    ∃ t w', (s.startRun x.run x.project name specs exec).run.run w = (.ok t, w') ∧
      w'.faults = [] ∧ w'.disk.get? x.runPlace = some (.dir Disk.dirMode) := by
  obtain ⟨w₁, hc, hfaults₁, hrun₁⟩ := h.createRunLog_fresh hfaults hproject hroot
  have h₁ : RunFiles x w₁ [] 0 := by
    have h₁ := h.createRunLog_run.2.1
    rwa [hc] at h₁
  have hw₁ := h.createRunLog_run.1
  rw [hc] at hw₁
  unfold Store.startRun
  rw [x.runDir_eq hs, WorldE.bind_run_ok h.runTaken_run]
  dsimp only
  rw [if_neg (by decide), WorldE.bind_run_ok (storeIo_run_ok hc), WorldE.bind_run_ok h₁.runTaken_run,
    if_neg (by decide), WorldE.bind_run_ok (storeIo_run_ok h₁.byteLen_run),
    WorldE.bind_run_ok (WorldE.liftM_run _ _), Store.newEvent_run]
  dsimp only
  set ev₀ : Event :=
    { seq := 0, time := w₁.clock, runId := x.run, projectId := some x.project, agentId := none,
      correlationId := "00000000-0000-4000-8000-" ++ hexLower (w₁.ids + 1) 12,
      kind := .runStarted name specs exec } with hev₀
  set w₂ : World := { w₁ with clock := w₁.clock.addMicros 1, ids := w₁.ids + 1 } with hw₂
  have h₂ : RunFiles x w₂ [] 0 := h₁.keep rfl rfl rfl h₁.noTears
  have hrun₂ : w₂.disk.get? x.runPlace = some (.dir Disk.dirMode) := hrun₁
  have hstore : ({ ev₀ with seq := 1 } : Event).Storable := by
    refine ⟨show 1 ≤ Json.Reader.u64Max by rw [u64Max_eq_wordMax]; decide, ?_, hexec⟩
    show w₁.clock.Reparses
    rw [hw₁.clock]
    exact hclock
  have hlogged : Logged ([] ++ [{ ev₀ with seq := 1 }]) :=
    h.logged.snoc rfl hstore (fun _ => ⟨name, specs, exec, rfl, hspecs⟩) (fun hne => absurd rfl hne)
      (by decide)
  obtain ⟨m, hra, -⟩ := (h₂.whole hrun₂).appendAt_ok hfaults₁ (fun m hm => by
    rw [x.filePlace_dropLast, hrun₂] at hm
    cases hm
    exact Disk.canChange_dirMode) ev₀ 1
  set w₃ : World := { w₂ with
    disk := w₂.disk.put (x.filePlace eventsFileName) (.file (wholeBytes ([] ++ [{ ev₀ with seq := 1 }])) m) }
    with hw₃
  have h₃ : RunFiles x w₃ ([] ++ [{ ev₀ with seq := 1 }]) 0 := by
    obtain ⟨-, hcases⟩ := h₂.appendAt_run hrun₂ hlogged
    rw [hra] at hcases
    rcases hcases with ⟨-, err, herr⟩ | ⟨h₃, -⟩
    · cases herr
    · exact h₃
  have hrun₃ : w₃.disk.get? x.runPlace = some (.dir Disk.dirMode) := by
    rw [Disk.get?_put_ne _ (x.filePlace_ne_runPlace _).symm]
    exact hrun₂
  have ht : Trace.rebuild ([] ++ [{ ev₀ with seq := 1 }]) =
      some { Trace.new x.run x.project name specs exec w₁.clock with lastSeq := 1 } :=
    Trace.rebuild_start rfl
  obtain ⟨w₄, hcommit, hfaults₄, hdisk₄⟩ := h₃.commit_ok hrun₃ Disk.canChange_dirMode hfaults₁ s.id ht
  rw [x.mk_dir_eq_log, WorldE.bind_run_ok (storeIo_run_ok hra), x.tuple_eq_key]
  dsimp only
  rw [WorldE.bind_run_ok hcommit]
  refine ⟨_, w₄, rfl, hfaults₄, ?_⟩
  rw [hdisk₄, Disk.get?_put_ne _ (x.filePlace_ne_runPlace _).symm]
  exact hrun₃

/-- A log line: refused without writing on a run with no events, else appended with the next
number, the store remembering the longer log; the snapshot is left behind. -/
theorem log_run (h : RunFiles x w E E.length) {s : Store} (hs : s.root = x.root)
    (hshort : E.length + 1 < wordMax) (level component message : String)
    (hclock : w.clock.Reparses) :
    Leaves x w.clock E 1 (fun ev => ev.runId = x.run ∧ ev.kind = .log level component message)
      (fun _ _ => True) ((s.log x.run x.project level component message).run.run w) := by
  have hrem : ((liftM (rememberedTail (s.id, x.project, x.run)) : WorldE StoreError _).run.run w).1
      = .ok (w.tailOf (x.key s.id)) := rfl
  unfold Store.log
  rw [x.runDir_eq hs, (rememberedTail_reads _).run_bind_ok hrem,
    WorldE.bind_run_ok (storeIo_run_ok h.lockRun_run), WorldE.bind_run_ok (h.ensureUnlocked_run _)]
  dsimp only
  rw [WorldE.bind_run_ok (h.currentTail_run fun t ht => h.tails s.id t ht)]
  dsimp only
  unfold pathExists
  rw [WorldE.bind_run_ok (onDisk_liftM_run _ _)]
  by_cases hE : E = []
  · subst hE
    have hexists : w.disk.exists_ w.cwd (Path.join x.dir traceFileName) = false := by
      rcases h.trace_metadata with hnone | ⟨k, -, t, m, ht, -⟩
      · rw [Disk.exists_, hnone]
        rfl
      · simp [Trace.rebuild] at ht
    rw [hexists, if_pos (show [].length = 0 ∧ (!false) = true from ⟨rfl, rfl⟩),
      WorldE.bind_run_error (WorldE.run_throw _ _)]
    exact ⟨⟨0, by omega, rfl⟩, [], h, .kept⟩
  rw [if_neg (fun hc => hE (List.length_eq_zero_iff.mp hc.1)),
    WorldE.bind_run_ok (WorldE.liftM_run _ _), Store.newEvent_run]
  dsimp only
  rw [wordSucc_eq (by omega), if_pos (by omega), x.mk_dir_eq_log]
  set ev₀ : Event :=
    { seq := 0, time := w.clock, runId := x.run, projectId := none, agentId := none,
      correlationId := "00000000-0000-4000-8000-" ++ hexLower (w.ids + 1) 12,
      kind := .log level component message } with hev₀
  set w₁ : World := { w with clock := w.clock.addMicros 1, ids := w.ids + 1 } with hw₁
  have h₁ : RunFiles x w₁ E E.length := h.keep rfl rfl rfl h.noTears
  have hclock₁ : w₁.clock = w.clock.after 1 := rfl
  obtain ⟨m₀, hrun⟩ := h₁.runDir_of_ne_nil hE
  obtain ⟨t, hD⟩ := h.logged.rebuild_isSome hE
  have hstore : ({ ev₀ with seq := E.length + 1 } : Event).Storable :=
    ⟨show E.length + 1 ≤ Json.Reader.u64Max by rw [u64Max_eq_wordMax]; omega, hclock, trivial⟩
  have hlogged : Logged (E ++ [{ ev₀ with seq := E.length + 1 }]) :=
    h.logged.snoc rfl hstore (fun hE' => absurd hE' hE) (fun _ => ⟨t, t, hD, rfl⟩) hshort
  set ev : Event := { ev₀ with seq := E.length + 1 } with hev
  have hlen : (E ++ [ev]).length = E.length + 1 := by simp
  have hP : ev.runId = x.run ∧ ev.kind = .log level component message := ⟨rfl, rfl⟩
  obtain ⟨hw, hcases⟩ := h₁.appendAt_run hrun hlogged
  rcases hra : (x.log.appendAt ev₀ (E.length + 1)).run.run w₁ with ⟨ra, wa⟩
  rw [hra] at hw hcases
  dsimp only at hw hcases
  rcases hcases with ⟨h₂, err, rfl⟩ | ⟨h₂, rfl | rfl⟩
  · rw [WorldE.bind_run_error (storeIo_run_error hra)]
    exact ⟨⟨1, le_rfl, hw.clock.trans hclock₁⟩, E, h₂, .kept⟩
  · have h₃ : RunFiles x wa (E ++ [ev]) (E ++ [ev]).length := h₂.mono (by simp) le_rfl
    rw [WorldE.bind_run_ok (storeIo_run_ok hra), WorldE.bind_run_ok (storeIo_run_ok h₃.byteLen_run),
      WorldE.liftM_run, x.tuple_eq_key]
    have hfits : ∀ tail ∈ some ({ bytes := (wholeBytes (E ++ [ev])).length, seq := ev.seq } : LogTail),
        Fits (E ++ [ev]) (E ++ [ev]).length tail := by
      rintro tail ⟨⟩
      exact ⟨(E ++ [ev]).length, le_rfl, by rw [List.take_length, hlen]⟩
    exact ⟨⟨1, le_rfl, hw.clock.trans hclock₁⟩, E ++ [ev], h₃.setTail s.id hfits, .appended hP trivial⟩
  · rw [WorldE.bind_run_error (storeIo_run_error hra)]
    exact ⟨⟨1, le_rfl, hw.clock.trans hclock₁⟩, E ++ [ev], h₂.mono (by simp) le_rfl, .left trivial hP⟩

/-- Recovering rebuilds the snapshot from the whole log and returns it, after forgetting the
store's tail; the log is never written, and a failed snapshot write leaves the disk as it was. -/
theorem recoverRun_run (h : RunFiles x w E E.length) {s : Store} (hs : s.root = x.root) :
    let r := (s.recoverRun x.project x.run).run.run w
    r.2.clock = w.clock ∧ RunFiles x r.2 E E.length ∧ ∀ t, r.1 = .ok t → Rebuilds t E := by
  dsimp only
  unfold Store.recoverRun
  rw [WorldE.bind_run_ok (WorldE.liftM_run _ _), x.tuple_eq_key]
  have hnone : ∀ tail ∈ (none : Option LogTail), Fits E E.length tail := fun _ h => by cases h
  set w₁ := ((rememberTail (x.key s.id) none).run w).2 with hw₁
  have h₁ : RunFiles x w₁ E E.length := h.setTail s.id hnone
  have hclock₁ : w₁.clock = w.clock := rfl
  dsimp only
  rw [x.runDir_eq hs, WorldE.bind_run_ok (storeIo_run_ok h₁.lockRun_run),
    WorldE.bind_run_ok (h₁.ensureUnlocked_run _), WorldE.bind_run_ok (storeIo_run_ok h₁.readAll_run)]
  cases hD : Trace.rebuild E with
  | none =>
    dsimp only
    rw [WorldE.run_throw]
    exact ⟨hclock₁, h₁, fun _ hok => by cases hok⟩
  | some t =>
    dsimp only
    have hne : E ≠ [] := by
      rintro rfl
      simp [Trace.rebuild] at hD
    obtain ⟨m₀, hrun⟩ := h₁.runDir_of_ne_nil hne
    obtain ⟨hw, hcases⟩ := h₁.writeTrace_run hrun t
    rcases hwt : (writeTrace x.dir t).run.run w₁ with ⟨rw, w₂⟩
    rw [hwt] at hw hcases
    dsimp only at hw hcases
    rcases hcases with ⟨hdisk, err, rfl, -⟩ | ⟨hdisk, rfl⟩
    · rw [WorldE.bind_run_error hwt]
      exact ⟨hw.clock.trans hclock₁, h₁.writes hw hdisk, fun _ hok => by cases hok⟩
    · rw [WorldE.bind_run_ok hwt, WorldE.run_pure]
      have ht : Trace.rebuild (E.take E.length) = some t := by rw [List.take_length]; exact hD
      exact ⟨hw.clock.trans hclock₁, h₁.setTrace hrun le_rfl ht Disk.canRead_privateMode hdisk hw.cwd hw.tails
        (h₁.noTears.writes hw), fun _ hok => by cases hok; exact hD⟩

/-- With nothing scheduled and a run directory its owner may change, recovering a run whose log
rebuilds returns the rebuilt trace. -/
theorem recoverRun_ok (h : RunFiles x w E E.length) {s : Store} (hs : s.root = x.root)
    (hfaults : w.faults = []) {m₀ : Nat} (hrun : w.disk.get? x.runPlace = some (.dir m₀))
    (hm₀ : Disk.canChange m₀) {t : Trace} (hD : Trace.rebuild E = some t) :
    ((s.recoverRun x.project x.run).run.run w).1 = .ok t := by
  unfold Store.recoverRun
  rw [WorldE.bind_run_ok (WorldE.liftM_run _ _), x.tuple_eq_key]
  have h₁ : RunFiles x ((rememberTail (x.key s.id) none).run w).2 E E.length :=
    h.setTail s.id fun _ hnone => by cases hnone
  dsimp only
  rw [x.runDir_eq hs, WorldE.bind_run_ok (storeIo_run_ok h₁.lockRun_run),
    WorldE.bind_run_ok (h₁.ensureUnlocked_run _), WorldE.bind_run_ok (storeIo_run_ok h₁.readAll_run),
    hD]
  dsimp only
  rw [WorldE.bind_run_ok (h₁.writeTrace_ok hrun hm₀ hfaults t), WorldE.run_pure]

end RunFiles

end RunJournal
