import RunJournal.Trace.Apply
import Mathlib.Data.List.Chain
import Mathlib.Data.List.Forall2
/-!
# The life cycle of a trace

A trace starts from its declaration, every declared agent pending, and changes only through
`Trace.apply`. Every trace reached that way keeps `Trace.Lifecycle`: the agents are the declared
ones in their order, each agent's times and error agree with its status and the run's end with
the run's status, every step sits under its own agent with an id new to that agent, adjacent steps
that both carry a time are in order of time, and each incident counts one retry. One accepted
event moves statuses forward only and leaves a finished run as it is (`Trace.Advances`).

`Trace.Accepts t e u` names, kind by kind, the trace `u` that an event `e` which is not a log line
turns `t` into before the summary is recomputed, together with the checks the event passed. An
event is accepted exactly so (`Trace.apply_eq_ok`): a log line leaves the trace as it is, and any
other accepted event found the run unfinished, made its one change, and the summary was recomputed.
Forgetting the event but its time, the change is one `Trace.Move` (`apply_ok`), and each invariant
is then one case per move. Every change to an agent goes through `updateAgent`, which changes the
first agent of an id and nothing else (`updateAgent_split`). An event's sequence number, run,
project and correlation id play no part in whether or how it applies (`Trace.apply_withSeq`).
-/

namespace RunJournal

/-! ## What each kind of event does to an agent -/

namespace AgentRun

/-- The declaration an agent's run was made from. -/
def spec (a : AgentRun) : AgentSpec := ⟨a.id, a.preset, a.purpose⟩

@[simp] theorem spec_declared (s : AgentSpec) : (declared s).spec = s := rfl

def started (time : Instant) (a : AgentRun) : AgentRun :=
  { a with status := .running, startedAt := some time }

/-- The agent finished at `time` with `status`, keeping its error unless a new one is given. -/
def finished (time : Instant) (status : AgentStatus) (error : Option String) (a : AgentRun) :
    AgentRun :=
  { a with status, endedAt := some time, error := if error.isSome then error else a.error }

def grown (s : Step) (a : AgentRun) : AgentRun :=
  { a with totalTokens := satAdd a.totalTokens s.tokens, steps := a.steps ++ [s] }

@[simp] theorem spec_started (time : Instant) (a : AgentRun) : (started time a).spec = a.spec := rfl

@[simp] theorem spec_finished (time : Instant) (status : AgentStatus) (error : Option String)
    (a : AgentRun) : (finished time status error a).spec = a.spec := rfl

@[simp] theorem spec_grown (s : Step) (a : AgentRun) : (grown s a).spec = a.spec := rfl

end AgentRun

/-! ## Changing the first agent of an id -/

section Update

variable {f : AgentRun → AgentRun} {id : String} {as : List AgentRun} {a : AgentRun}

/-- The agents before the first one named `id` are kept, that one is changed, and the rest kept. -/
theorem updateAgent_split (h : as.find? (·.id == id) = some a) :
    ∃ pre post, as = pre ++ a :: post ∧ Trace.updateAgent f id as = pre ++ f a :: post := by
  induction as with
  | nil => exact absurd h (by simp)
  | cons b rest ih =>
    by_cases hb : b.id = id
    · have hab : b = a := by simpa [hb] using h
      subst hab
      exact ⟨[], rest, rfl, by simp [Trace.updateAgent, hb]⟩
    · have hrest : rest.find? (·.id == id) = some a := by simpa [hb] using h
      obtain ⟨pre, post, rfl, hupd⟩ := ih hrest
      exact ⟨b :: pre, post, rfl, by simp [Trace.updateAgent, hb, hupd]⟩

theorem mem_updateAgent (h : as.find? (·.id == id) = some a) {b : AgentRun}
    (hb : b ∈ Trace.updateAgent f id as) : b ∈ as ∨ b = f a := by
  obtain ⟨pre, post, rfl, hupd⟩ := updateAgent_split (f := f) h
  rw [hupd] at hb
  simp only [List.mem_append, List.mem_cons] at hb ⊢
  tauto

theorem map_updateAgent {β : Type} {g : AgentRun → β} (h : as.find? (·.id == id) = some a)
    (hg : g (f a) = g a) : (Trace.updateAgent f id as).map g = as.map g := by
  obtain ⟨pre, post, rfl, hupd⟩ := updateAgent_split (f := f) h
  simp [hupd, hg]

theorem forall₂_updateAgent {R : AgentRun → AgentRun → Prop} (h : as.find? (·.id == id) = some a)
    (hrefl : ∀ b ∈ as, R b b) (hf : R a (f a)) : List.Forall₂ R as (Trace.updateAgent f id as) := by
  obtain ⟨pre, post, rfl, hupd⟩ := updateAgent_split (f := f) h
  rw [hupd]
  refine List.rel_append (List.forall₂_same.2 fun b hb => hrefl b (by simp [hb])) ?_
  exact List.Forall₂.cons hf (List.forall₂_same.2 fun b hb => hrefl b (by simp [hb]))

end Update

/-! ## What an accepted event does -/

namespace Trace

variable {t t' u : Trace} {e : Event}

/-- The ways an accepted event that is not a log line changes a running trace, before its summary
is recomputed. -/
inductive Move (t : Trace) (time : Instant) : Trace → Prop
  | start {id : String} {a : AgentRun} : t.agent? id = some a → a.status = .pending →
      Move t time { t with agents := updateAgent (AgentRun.started time) id t.agents }
  | finish {id : String} {a : AgentRun} {status : AgentStatus} (error : Option String) :
      t.agent? id = some a → a.status = .running → status.isTerminal →
      Move t time { t with agents := updateAgent (AgentRun.finished time status error) id t.agents }
  | step {s : Step} {a : AgentRun} : t.agent? s.agent = some a → a.status.isTerminal = false →
      (a.steps.any (·.id == s.id)) = false → before a s = false →
      Move t time { t with agents := updateAgent (AgentRun.grown s) s.agent t.agents }
  | artifact (x : Artifact) : Move t time { t with artifacts := t.artifacts ++ [x] }
  | incident (i : Incident) :
      Move t time { t with incidents := t.incidents ++ [i],
                           execution.retryCount := halfWordSucc t.execution.retryCount }
  | complete {status : RunStatus} : status.isTerminal →
      Move t time { t with status, endedAt := some time }

theorem eventAgent_ok {id : String} (h : t.eventAgent e = .ok id) : e.agentId = some id := by
  unfold eventAgent at h
  split at h <;> simp_all

theorem findAgent_ok {id : String} {a : AgentRun} (h : t.findAgent id = .ok a) :
    t.agent? id = some a := by
  unfold findAgent at h
  split at h <;> simp_all

/-- The change an accepted event that is not a log line makes to a running trace, before its
summary is recomputed, with the checks it passed. -/
inductive Accepts (t : Trace) (e : Event) : Trace → Prop
  | start {id : String} {a : AgentRun} : e.kind = .agentStarted → e.agentId = some id →
      t.agent? id = some a → a.status = .pending →
      Accepts t e { t with agents := updateAgent (AgentRun.started e.time) id t.agents }
  | finish {id : String} {a : AgentRun} {status : AgentStatus} {error : Option String} :
      e.kind = .agentCompleted status error → e.agentId = some id → t.agent? id = some a →
      a.status = .running → status.isTerminal →
      Accepts t e { t with agents := updateAgent (AgentRun.finished e.time status error) id t.agents }
  | step {s : Step} {a : AgentRun} : e.kind = .stepAdded s → t.agent? s.agent = some a →
      a.status.isTerminal = false → (∀ target, e.agentId = some target → target = s.agent) →
      (a.steps.any (·.id == s.id)) = false → before a s = false →
      Accepts t e { t with agents := updateAgent (AgentRun.grown s) s.agent t.agents }
  | artifact {x : Artifact} : e.kind = .artifactAdded x →
      Accepts t e { t with artifacts := t.artifacts ++ [x] }
  | incident {i : Incident} : e.kind = .incidentAdded i →
      Accepts t e { t with incidents := t.incidents ++ [i],
                           execution.retryCount := halfWordSucc t.execution.retryCount }
  | complete {status : RunStatus} : e.kind = .runCompleted status → status.isTerminal →
      Accepts t e { t with status, endedAt := some e.time }

/-- An accepted change is one of the moves of the life cycle, at the event's time. -/
theorem Accepts.move (h : t.Accepts e u) : t.Move e.time u := by
  cases h with
  | start _ _ ha hs => exact .start ha hs
  | finish _ _ ha hs hterm => exact .finish _ ha hs hterm
  | step _ ha hterm _ hdup hbefore => exact .step ha hterm hdup hbefore
  | artifact _ => exact .artifact _
  | incident _ => exact .incident _
  | complete _ hterm => exact .complete hterm

theorem Accepts.lastSeq_eq (h : t.Accepts e u) : u.lastSeq = t.lastSeq := by
  cases h <;> rfl

theorem startAgent_accepts (hk : e.kind = .agentStarted) (h : t.startAgent e = .ok u) :
    t.Accepts e u := by
  unfold startAgent at h
  cases hid : t.eventAgent e with
  | error err => simp [hid, bind, Except.bind] at h
  | ok id =>
    cases ha : t.findAgent id with
    | error err => simp [hid, ha, bind, Except.bind] at h
    | ok a =>
      simp only [hid, ha, bind, Except.bind] at h
      cases hs : a.status <;> simp [hs, pure, Except.pure, throw, throwThe, MonadExceptOf.throw] at h
      subst h
      exact .start hk (eventAgent_ok hid) (findAgent_ok ha) hs

theorem completeAgent_accepts {status : AgentStatus} {error : Option String}
    (hk : e.kind = .agentCompleted status error) (h : t.completeAgent e status error = .ok u) :
    t.Accepts e u := by
  unfold completeAgent at h
  cases hterm : status.isTerminal
  · simp [hterm, bind, Except.bind, throw, throwThe, MonadExceptOf.throw] at h
  cases hid : t.eventAgent e with
  | error err => simp [hterm, hid, bind, Except.bind] at h
  | ok id =>
    cases ha : t.findAgent id with
    | error err => simp [hterm, hid, ha, bind, Except.bind] at h
    | ok a =>
      simp only [hterm, hid, ha, bind, Except.bind, pure, Except.pure] at h
      cases hs : a.status <;> simp [hs, throw, throwThe, MonadExceptOf.throw] at h
      subst h
      exact .finish hk (eventAgent_ok hid) (findAgent_ok ha) hs hterm

theorem addStep_accepts {s : Step} (hk : e.kind = .stepAdded s) (h : t.addStep e s = .ok u) :
    t.Accepts e u := by
  unfold addStep at h
  cases ha : t.findAgent s.agent with
  | error err => simp [ha, bind, Except.bind] at h
  | ok a =>
    simp only [ha, bind, Except.bind] at h
    cases hterm : a.status.isTerminal
    · cases htarget : e.agentId with
      | none =>
        cases hdup : a.steps.any (·.id == s.id) <;> cases hbefore : before a s <;>
          simp [hterm, htarget, hdup, hbefore, pure, Except.pure, throw, throwThe,
            MonadExceptOf.throw] at h
        subst h
        exact .step hk (findAgent_ok ha) hterm (by simp [htarget]) hdup hbefore
      | some target =>
        by_cases hmatch : target = s.agent
        · cases hdup : a.steps.any (·.id == s.id) <;> cases hbefore : before a s <;>
            simp [hterm, htarget, hmatch, hdup, hbefore, pure, Except.pure, throw, throwThe,
              MonadExceptOf.throw] at h
          subst h
          exact .step hk (findAgent_ok ha) hterm (by simp [htarget, hmatch]) hdup hbefore
        · simp [hterm, htarget, hmatch, throw, throwThe, MonadExceptOf.throw] at h
    · simp [hterm, throw, throwThe, MonadExceptOf.throw] at h

/-- An accepted event is a log line, which leaves the trace as it is, or it found the run
unfinished, made its change, and the summary was recomputed. -/
theorem apply_eq_ok (h : t.apply e = .ok t') :
    (e.kind.isLog = true ∧ t' = t) ∨
      (t.status.isTerminal = false ∧ ∃ u, t.Accepts e u ∧ t' = u.refresh) := by
  unfold apply at h
  split at h
  · exact .inl ⟨‹_›, by simpa using h.symm⟩
  split at h
  · cases h
  refine .inr ⟨by simpa using ‹¬t.status.isTerminal = true›, ?_⟩
  cases hk : e.kind with
  | runStarted => simp [hk, Except.map] at h
  | agentStarted =>
    simp only [hk] at h
    cases hm : t.startAgent e <;> rw [hm] at h
    · cases h
    · exact ⟨_, startAgent_accepts hk hm, (Except.ok.inj h).symm⟩
  | agentCompleted status error =>
    simp only [hk] at h
    cases hm : t.completeAgent e status error <;> rw [hm] at h
    · cases h
    · exact ⟨_, completeAgent_accepts hk hm, (Except.ok.inj h).symm⟩
  | stepAdded s =>
    simp only [hk] at h
    cases hm : t.addStep e s <;> rw [hm] at h
    · cases h
    · exact ⟨_, addStep_accepts hk hm, (Except.ok.inj h).symm⟩
  | artifactAdded x =>
    simp only [hk, Except.map, Except.ok.injEq] at h
    exact ⟨_, .artifact hk, h.symm⟩
  | incidentAdded i =>
    simp only [hk, Except.map, Except.ok.injEq] at h
    exact ⟨_, .incident hk, h.symm⟩
  | runCompleted status =>
    cases hs : status.isTerminal <;> simp [hk, hs, Except.map] at h
    exact ⟨_, .complete hk hs, h.symm⟩
  | log => simp [hk, EventKind.isLog] at *

theorem apply_withSeq (t : Trace) (e : Event) (n : Nat) : t.apply { e with seq := n } = t.apply e :=
  rfl

/-- An accepted event leaves the trace as it is (a log line), or it was running and the event made
one move, after which the summary is recomputed. -/
theorem apply_ok (h : t.apply e = .ok t') :
    t' = t ∨ t.status = .running ∧ ∃ u, t.Move e.time u ∧ t' = u.refresh := by
  rcases apply_eq_ok h with ⟨-, rfl⟩ | ⟨hterm, u, hacc, rfl⟩
  · exact .inl rfl
  · have hrun : t.status = .running := by
      cases hs : t.status <;> simp_all [RunStatus.isTerminal]
    exact .inr ⟨hrun, u, hacc.move, rfl⟩

end Trace

/-! ## What every agent keeps -/

/-- How far an agent has come: declared, started, finished. -/
def AgentStatus.stage : AgentStatus → Nat
  | .pending => 0
  | .running => 1
  | .completed | .failed => 2

def AgentStatus.Advances (s s' : AgentStatus) : Prop := s' = s ∨ s.stage < s'.stage

/-- Two steps are in order of time where both carry one. -/
def Step.InOrder (s s' : Step) : Prop :=
  ∀ x y, s.timestamp = some x → s'.timestamp = some y → ¬ y < x

theorem Instant.lt_iff_lex {a b : Instant} : a < b ↔
    a.day < b.day ∨ a.day = b.day ∧ (a.second < b.second ∨ a.second = b.second ∧ a.nano < b.nano) := by
  show a.lt b = true ↔ _
  simp [Instant.lt]

theorem Instant.not_lt_trans {a b c : Instant} (hab : ¬ b < a) (hbc : ¬ c < b) : ¬ c < a := by
  rw [Instant.lt_iff_lex] at *
  omega

theorem isChain_timestamps {l : List Step} (hts : ∀ s ∈ l, s.timestamp.isSome)
    (h : l.IsChain Step.InOrder) : (l.filterMap Step.timestamp).IsChain fun x y => ¬ y < x := by
  induction l with
  | nil => simp
  | cons s l ih =>
    obtain ⟨x, hx⟩ := Option.isSome_iff_exists.mp (hts s (by simp))
    rw [List.filterMap_cons_some hx]
    refine List.IsChain.cons (ih (fun s' hs' => hts s' (by simp [hs'])) h.tail) ?_
    intro y hy
    cases l with
    | nil => simp at hy
    | cons s' l =>
      obtain ⟨y', hy'⟩ := Option.isSome_iff_exists.mp (hts s' (by simp))
      rw [List.filterMap_cons_some hy', List.head?_cons, Option.mem_def, Option.some.injEq] at hy
      subst hy
      exact h.rel x y' hx hy'

namespace AgentRun

variable {a : AgentRun} {time : Instant}

/-- An agent's times and error agree with its status. -/
def Phased (a : AgentRun) : Prop :=
  match a.status with
  | .pending => a.startedAt = none ∧ a.endedAt = none ∧ a.error = none
  | .running => a.startedAt.isSome ∧ a.endedAt = none ∧ a.error = none
  | .completed | .failed => a.startedAt.isSome ∧ a.endedAt.isSome

/-- What every agent of a trace keeps: its times agree with its status, its steps are its own,
with ids new to it, and adjacent timed steps are in order of time. -/
structure Sound (a : AgentRun) : Prop where
  phased : a.Phased
  owned : ∀ s ∈ a.steps, s.agent = a.id
  ids_new : (a.steps.map (·.id)).Nodup
  in_order : a.steps.IsChain Step.InOrder

theorem sound_declared (s : AgentSpec) : (declared s).Sound :=
  ⟨by simp [Phased, declared], by simp [declared], by simp [declared], by simp [declared]⟩

theorem Sound.started (h : a.Sound) (hp : a.status = .pending) : (started time a).Sound := by
  have hph := h.phased
  simp only [Phased, hp] at hph
  exact ⟨by simp [Phased, AgentRun.started, hph], h.owned, h.ids_new, h.in_order⟩

theorem Sound.finished {status : AgentStatus} {error : Option String} (h : a.Sound)
    (hr : a.status = .running) (ht : status.isTerminal) : (finished time status error a).Sound := by
  have hph := h.phased
  simp only [Phased, hr] at hph
  refine ⟨?_, h.owned, h.ids_new, h.in_order⟩
  cases status <;> simp_all [Phased, AgentRun.finished, AgentStatus.isTerminal]

theorem inOrder_of_not_before {s : Step} (h : Trace.before a s = false) :
    ∀ x ∈ a.steps.getLast?, Step.InOrder x s := by
  intro x hx tx ts htx hts
  rw [Option.mem_def] at hx
  simpa [Trace.before, hx, htx, hts] using h

theorem Sound.grown {s : Step} (h : a.Sound) (hid : s.agent = a.id)
    (hdup : (a.steps.any (·.id == s.id)) = false) (hbefore : Trace.before a s = false) :
    (grown s a).Sound := by
  refine ⟨h.phased, ?_, ?_, ?_⟩
  · intro s' hs'
    rcases List.mem_append.mp hs' with hs' | hs'
    · exact h.owned s' hs'
    · rw [List.mem_singleton.mp hs']
      exact hid
  · have hnew : ∀ s' ∈ a.steps, ¬ s'.id = s.id := by simpa using hdup
    simpa [AgentRun.grown, List.nodup_append] using ⟨h.ids_new, hnew⟩
  · exact h.in_order.append (.singleton s) fun x hx y hy => by
      simp only [List.head?_cons, Option.mem_def, Option.some.injEq] at hy
      exact hy ▸ inOrder_of_not_before hbefore x hx

/-- When every step of a sound agent carries a time, its steps are sorted by time. -/
theorem Sound.sorted (h : a.Sound) (hts : ∀ s ∈ a.steps, s.timestamp.isSome) :
    (a.steps.filterMap Step.timestamp).Pairwise fun x y => ¬ y < x := by
  have : Trans (fun x y : Instant => ¬ y < x) (fun x y => ¬ y < x) (fun x y => ¬ y < x) :=
    ⟨fun hab hbc => Instant.not_lt_trans hab hbc⟩
  exact List.isChain_iff_pairwise.mp (isChain_timestamps hts h.in_order)

end AgentRun

/-! ## What every trace keeps -/

namespace Trace

variable {t t' u : Trace} {e : Event} {specs : List AgentSpec} {retries : Nat} {time : Instant}

def Phased (t : Trace) : Prop :=
  match t.status with
  | .running => t.endedAt = none
  | .completed | .failed | .cancelled => t.endedAt.isSome

/-- What every trace reached from the declaration of `specs` with `retries` retries keeps. -/
structure Lifecycle (specs : List AgentSpec) (retries : Nat) (t : Trace) : Prop where
  specs_kept : t.agentSpecs = specs
  agents_declared : t.agents.map AgentRun.spec = specs
  agents_sound : ∀ a ∈ t.agents, a.Sound
  run_phased : t.Phased
  retries_counted : retries + t.incidents.length < Nat.pow 2 32 →
    t.execution.retryCount = retries + t.incidents.length

theorem lifecycle_new (runId projectId name : String) (exec : Execution) (time : Instant) :
    (Trace.new runId projectId name specs exec time).Lifecycle specs exec.retryCount := by
  refine ⟨rfl, ?_, ?_, rfl, fun _ => by simp [Trace.new, refresh]⟩
  · simp [Trace.new, refresh, List.map_map, Function.comp_def]
  · intro a ha
    simp only [Trace.new, refresh, List.mem_map] at ha
    obtain ⟨s, -, rfl⟩ := ha
    exact AgentRun.sound_declared s

theorem Lifecycle.refresh (h : t.Lifecycle specs retries) : t.refresh.Lifecycle specs retries :=
  ⟨h.specs_kept, h.agents_declared, h.agents_sound, h.run_phased, h.retries_counted⟩

theorem Lifecycle.stamp (h : t.Lifecycle specs retries) (n : Nat) :
    ({ t with lastSeq := n } : Trace).Lifecycle specs retries :=
  ⟨h.specs_kept, h.agents_declared, h.agents_sound, h.run_phased, h.retries_counted⟩

theorem agent?_mem {id : String} {a : AgentRun} (h : t.agent? id = some a) :
    a ∈ t.agents ∧ a.id = id := by
  unfold agent? at h
  exact ⟨List.mem_of_find?_eq_some h, by simpa using List.find?_some h⟩

/-- Changing one agent into a sound agent with the same declaration keeps the agents. -/
theorem Lifecycle.update {f : AgentRun → AgentRun} {id : String} {a : AgentRun}
    (h : t.Lifecycle specs retries) (ha : t.agent? id = some a) (hspec : (f a).spec = a.spec)
    (hsound : (f a).Sound) :
    ({ t with agents := updateAgent f id t.agents } : Trace).Lifecycle specs retries := by
  refine ⟨h.specs_kept, ?_, ?_, h.run_phased, h.retries_counted⟩
  · rw [← h.agents_declared]
    exact map_updateAgent ha hspec
  · intro b hb
    rcases mem_updateAgent ha hb with hb | rfl
    · exact h.agents_sound b hb
    · exact hsound

theorem Lifecycle.move (h : t.Lifecycle specs retries) (hm : t.Move time u) :
    u.Lifecycle specs retries := by
  cases hm with
  | start ha hp =>
    exact h.update ha rfl ((h.agents_sound _ (agent?_mem ha).1).started hp)
  | finish error ha hr ht =>
    exact h.update ha rfl ((h.agents_sound _ (agent?_mem ha).1).finished hr ht)
  | step ha hterm hdup hbefore =>
    obtain ⟨hmem, hid⟩ := agent?_mem ha
    exact h.update ha rfl ((h.agents_sound _ hmem).grown hid.symm hdup hbefore)
  | artifact x =>
    exact ⟨h.specs_kept, h.agents_declared, h.agents_sound, h.run_phased, h.retries_counted⟩
  | incident i =>
    refine ⟨h.specs_kept, h.agents_declared, h.agents_sound, h.run_phased, fun hlt => ?_⟩
    simp only [List.length_append, List.length_singleton] at hlt ⊢
    have hprev := h.retries_counted (by omega)
    simp only [halfWordSucc, hprev]
    exact Nat.mod_eq_of_lt (by omega)
  | complete ht =>
    refine ⟨h.specs_kept, h.agents_declared, h.agents_sound, ?_, h.retries_counted⟩
    rename_i status
    cases status <;> simp_all [Phased, RunStatus.isTerminal]

theorem Lifecycle.apply (h : t.Lifecycle specs retries) (happ : t.apply e = .ok t') :
    t'.Lifecycle specs retries := by
  rcases apply_ok happ with rfl | ⟨-, u, hm, rfl⟩
  · exact h
  · exact (h.move hm).refresh

/-- Replaying a logged event keeps the life cycle, whether the trace accepts it or not. -/
theorem Lifecycle.applyLogged (h : t.Lifecycle specs retries) :
    (t.applyLogged e).1.Lifecycle specs retries := by
  unfold Trace.applyLogged
  cases happ : t.apply e with
  | error err => exact h.stamp _
  | ok t' => exact (h.apply happ).stamp _

/-- A trace rebuilt from a log whose first event declares `specs` keeps the life cycle. -/
theorem lifecycle_rebuild {first : Event} {rest : List Event} {name : String} {exec : Execution}
    (hfirst : first.kind = .runStarted name specs exec) (h : rebuild (first :: rest) = some t) :
    t.Lifecycle specs exec.retryCount := by
  simp only [rebuild, hfirst, Option.some.injEq] at h
  subst h
  -- the fold replays `rest` from the fresh trace; each replayed event keeps the life cycle
  generalize hstart : ({ Trace.new first.runId (first.projectId.getD "") name specs exec first.time
    with lastSeq := first.seq } : Trace) = start
  have hl : start.Lifecycle specs exec.retryCount := hstart ▸ (lifecycle_new _ _ _ exec _).stamp _
  clear hstart
  induction rest generalizing start with
  | nil => exact hl
  | cons e rest ih => exact ih _ hl.applyLogged

/-! ## What one accepted event does to statuses -/

/-- One accepted event moves the run's status and every agent's status forward only, and leaves a
finished run as it is. -/
structure Advances (t t' : Trace) : Prop where
  run_forward : t'.status = t.status ∨ t.status = .running
  agents_forward : List.Forall₂ (fun a a' => a.status.Advances a'.status) t.agents t'.agents
  frozen : t.status.isTerminal → t' = t

theorem advances_refl (t : Trace) : t.Advances t :=
  ⟨.inl rfl, List.forall₂_same.2 fun _ _ => .inl rfl, fun _ => rfl⟩

theorem advances_move (hrun : t.status = .running) (hm : t.Move time u) : t.Advances u.refresh := by
  have hsame : ∀ b ∈ t.agents, b.status.Advances b.status := fun _ _ => .inl rfl
  refine ⟨.inr hrun, ?_, by simp [hrun, RunStatus.isTerminal]⟩
  cases hm with
  | start ha hp =>
    exact forall₂_updateAgent ha hsame (.inr (by simp [AgentRun.started, hp, AgentStatus.stage]))
  | finish error ha hr ht =>
    refine forall₂_updateAgent ha hsame (.inr ?_)
    rename_i status
    cases status <;> simp_all [AgentRun.finished, AgentStatus.stage, AgentStatus.isTerminal]
  | step ha hterm hdup hbefore => exact forall₂_updateAgent ha hsame (.inl rfl)
  | artifact x => exact List.forall₂_same.2 hsame
  | incident i => exact List.forall₂_same.2 hsame
  | complete ht => exact List.forall₂_same.2 hsame

theorem advances_apply (h : t.apply e = .ok t') : t.Advances t' := by
  rcases apply_ok h with rfl | ⟨hrun, u, hm, rfl⟩
  · exact advances_refl _
  · exact advances_move hrun hm

/-! ## Reachable traces -/

/-- The traces reachable from the declaration of `specs` under `exec`: a fresh trace, a trace
rebuilt from a log whose first event declares them, and what accepted events make of these. -/
inductive Reachable (specs : List AgentSpec) (exec : Execution) : Trace → Prop
  | new (runId projectId name : String) (time : Instant) :
      Reachable specs exec (Trace.new runId projectId name specs exec time)
  | rebuilt {first : Event} {rest : List Event} {name : String} {t : Trace} :
      first.kind = .runStarted name specs exec → rebuild (first :: rest) = some t →
      Reachable specs exec t
  | apply {t t' : Trace} {e : Event} :
      Reachable specs exec t → t.apply e = .ok t' → Reachable specs exec t'

/-- Every trace reachable from a declaration keeps its life cycle (with its steps sorted by time
once all of them carry one), and every event it accepts moves it forward only. -/
theorem Reachable.lifecycle {exec : Execution} (h : Reachable specs exec t) :
    t.Lifecycle specs exec.retryCount ∧
      (∀ a ∈ t.agents, (∀ s ∈ a.steps, s.timestamp.isSome) →
        (a.steps.filterMap Step.timestamp).Pairwise fun x y => ¬ y < x) ∧
      ∀ e t', t.apply e = .ok t' → t.Advances t' := by
  have hl : t.Lifecycle specs exec.retryCount := by
    induction h with
    | new runId projectId name time => exact lifecycle_new runId projectId name exec time
    | rebuilt hfirst hrebuild => exact lifecycle_rebuild hfirst hrebuild
    | apply _ happ ih => exact ih.apply happ
  exact ⟨hl, fun a ha hts => (hl.agents_sound a ha).sorted hts, fun _ _ happ => advances_apply happ⟩

/-- A run of accepted events from a reachable trace ends in a reachable trace. -/
theorem Reachable.foldlM (es : List Event) (h : Reachable specs exec t)
    (hall : es.foldlM (fun t e => t.apply e) t = .ok t') : Reachable specs exec t' := by
  induction es generalizing t with
  | nil =>
    cases hall
    exact h
  | cons e es ih =>
    rw [List.foldlM_cons] at hall
    cases happ : t.apply e with
    | error err => simp [happ, bind, Except.bind] at hall
    | ok u =>
      rw [happ] at hall
      exact ih (h.apply happ) hall

def sampleAgents : List AgentSpec := [⟨"a1", "executor", "x"⟩]

/-- An event of run `r1` of project `p1` at the given second of the first day. -/
def sampleEvent (seq second : Nat) (agent : Option String) (kind : EventKind) : Event :=
  ⟨seq, ⟨0, second, 0⟩, "r1", some "p1", agent, "c", kind⟩

/-- The agent's first model call, of 12 tokens in and 30 out. -/
def sampleStep : Step :=
  { Step.llm "a1" 1 "openai" "gpt" 12 30 with startedAt := some ⟨0, 2, 0⟩, endedAt := some ⟨0, 3, 0⟩ }

/-- The agent starts, makes one model call, meets an incident and completes; then the run
completes. -/
def sampleEvents : List Event :=
  [sampleEvent 2 1 (some "a1") .agentStarted,
   sampleEvent 3 3 (some "a1") (.stepAdded sampleStep),
   sampleEvent 4 4 none (.incidentAdded ⟨"a1.llm_01", "a1", "TIMEOUT", "slow", ⟨0, 4, 0⟩, true⟩),
   sampleEvent 5 5 (some "a1") (.agentCompleted .completed none),
   sampleEvent 6 6 none (.runCompleted .completed)]

theorem Reachable.lifecycle_finished_run :
    ∃ t, sampleEvents.foldlM (fun t e => t.apply e)
        (Trace.new "r1" "p1" "demo" sampleAgents Execution.default ⟨0, 0, 0⟩) = .ok t ∧
      t.status = .completed ∧ t.incidents.length = 1 ∧ t.execution.retryCount = 1 ∧
      (t.agents.map fun a => (a.status, a.steps.length)) = [(.completed, 1)] ∧
      t.Lifecycle sampleAgents Execution.default.retryCount ∧
      (∀ a ∈ t.agents, (∀ s ∈ a.steps, s.timestamp.isSome) →
        (a.steps.filterMap Step.timestamp).Pairwise fun x y => ¬ y < x) ∧
      ∀ e t', t.apply e = .ok t' → t.Advances t' :=
  ⟨_, rfl, rfl, rfl, rfl, rfl,
    Reachable.lifecycle (Reachable.foldlM sampleEvents (.new "r1" "p1" "demo" ⟨0, 0, 0⟩) rfl)⟩

end Trace

end RunJournal
