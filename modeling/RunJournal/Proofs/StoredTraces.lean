import Mathlib
import RunJournal.Proofs.CatchUp
import RunJournal.Proofs.Counters
import RunJournal.Proofs.TraceCodec
/-!
# Replayed traces can be stored

A trace replayed from a log is written to its snapshot and has to read back from it, which it does
when it is `Trace.Storable`: every instant in it reads back from its text and every number fits the
width it is read with. Replaying storable events gives such a trace (`rebuild_storable`), provided
the run declares no more agents and the log holds no more events than a 64-bit word counts.

The instants of a replayed trace are those of its events, and its numbers are counts of what the
events added, saturating sums, the retry count that wraps within 32 bits, the watermark, which is
the sequence number of an event, and the run's duration. The duration is the one number that is not
counted: it fits because an instant that reads back lies within the years the calendar supports, so
any two are less than `2 ^ 64` milliseconds apart (`Instant.millisBetween_le_wordMax`).

`Trace.Sound` gathers what replaying keeps, each change of `Trace.Accepts` one case; the summary
and the watermark, which every accepted event recomputes, are checked once at the end.
-/

namespace RunJournal

/-! ## Instants that read back -/

namespace Rfc3339

theorem toNat_sub_le_of_isDigit {c : Char} (h : c.isDigit = true) : c.toNat - 48 ≤ 9 := by
  unfold Char.isDigit at h
  simp only [Bool.and_eq_true, decide_eq_true_eq] at h
  have h2 := UInt32.le_iff_toNat_le.mp h.2
  simp at h2
  omega

theorem foldl_digits_lt {ds : List Char} (hds : ∀ c ∈ ds, c.isDigit = true) (n : Nat) :
    ds.foldl (fun n c => n * 10 + (c.toNat - 48)) n < (n + 1) * 10 ^ ds.length := by
  induction ds generalizing n with
  | nil => simp
  | cons c rest ih =>
    rw [List.foldl_cons, List.length_cons]
    have hc := toNat_sub_le_of_isDigit (hds c List.mem_cons_self)
    have hrest := ih (fun c' h' => hds c' (List.mem_cons_of_mem _ h')) (n * 10 + (c.toNat - 48))
    calc _ < (n * 10 + (c.toNat - 48) + 1) * 10 ^ rest.length := hrest
      _ ≤ (n + 1) * 10 * 10 ^ rest.length := Nat.mul_le_mul_right _ (by omega)
      _ = (n + 1) * 10 ^ (rest.length + 1) := by rw [Nat.pow_succ]; ring

theorem number_eq_ok {s rest : List Char} {lo hi v : Nat} (h : number s lo hi = .ok (rest, v)) :
    rest = s.drop ((s.take hi).takeWhile Char.isDigit).length ∧
      v = ((s.take hi).takeWhile Char.isDigit).foldl (fun n c => n * 10 + (c.toNat - 48)) 0 := by
  unfold number at h
  split at h
  · cases h
  dsimp only at h
  split at h
  · cases h
  split at h
  · cases h
  cases h
  exact ⟨rfl, rfl⟩

theorem fraction_lt {s : List Char} {p : List Char × Nat} (h : fraction s = .ok p) :
    p.2 < 1000000000 := by
  obtain ⟨rest, v⟩ := p
  unfold fraction at h
  cases hn : number s 1 9 with
  | error e =>
    rw [hn] at h
    cases h
  | ok p =>
    obtain ⟨r', v'⟩ := p
    rw [hn] at h
    cases h
    obtain ⟨rfl, rfl⟩ := number_eq_ok hn
    generalize hds : (s.take 9).takeWhile Char.isDigit = ds
    have hdigits : ∀ c ∈ ds, c.isDigit = true := fun c hc => by
      rw [← hds] at hc
      exact List.mem_takeWhile_imp hc
    have hlen : ds.length ≤ 9 := by
      rw [← hds]
      exact (List.takeWhile_sublist _).length_le.trans (by simp)
    have hused : s.length - (s.drop ds.length).length = ds.length := by
      have : ds.length ≤ s.length := by
        rw [← hds]
        exact (List.takeWhile_sublist _).length_le.trans (List.length_take_le' 9 s)
      simp
      omega
    have hv := foldl_digits_lt hdigits 0
    show _ * Nat.pow 10 (9 - (s.length - (s.drop ds.length).length)) < _
    rw [hused, Nat.pow_eq]
    calc _ < 10 ^ ds.length * 10 ^ (9 - ds.length) :=
          Nat.mul_lt_mul_of_pos_right (by simpa using hv) (by positivity)
      _ = 10 ^ 9 := by rw [← Nat.pow_add]; congr 1; omega
      _ = 1000000000 := by norm_num

theorem fields_nano_lt {text : String} {f : Fields} (h : fields text = .ok f) :
    f.nano < 1000000000 := by
  unfold fields at h
  simp only [bind, Except.bind, pure, Except.pure, throw, throwThe, MonadExceptOf.throw] at h
  repeat' split at h
  all_goals cases h
  all_goals (dsimp only; first | exact fraction_lt ‹_› | decide)

/-- The instant the pieces name lies within the supported years, its second within the day, and its
nanoseconds within a leap second past the fraction. -/
theorem Fields.instant_bounds {f : Fields} {t : Instant} (h : f.instant = .ok t) :
    Instant.minYear ≤ (Instant.civilFromDays t.day).1 ∧
      (Instant.civilFromDays t.day).1 ≤ Instant.maxYear ∧ t.second < 86400 ∧
      t.nano ≤ f.nano + 1000000000 := by
  unfold Fields.instant at h
  simp only [bind, Except.bind, pure, Except.pure, throw, throwThe, MonadExceptOf.throw] at h
  split at h
  case h_2 => cases h
  have hleap : (if f.second = 60 then ((59 : Nat), (1000000000 : Nat)) else (f.second, 0)).2
      ≤ 1000000000 := by
    split <;> simp
  generalize (if f.second = 60 then ((59 : Nat), (1000000000 : Nat)) else (f.second, 0)) = sl
    at h hleap
  split at h
  · cases h
  split at h
  · cases h
  split at h
  · cases h
  rename_i hrange
  cases h
  simp only [not_or, Int.not_lt] at hrange
  dsimp only
  refine ⟨hrange.1, hrange.2, ?_, by omega⟩
  omega

end Rfc3339

namespace Instant

theorem day_bounds_of_year {z : Int} (hlo : minYear ≤ (civilFromDays z).1)
    (hhi : (civilFromDays z).1 ≤ maxYear) : -97000000 ≤ z ∧ z ≤ 97000000 := by
  unfold civilFromDays minYear maxYear at *
  dsimp only at hlo hhi
  split at hlo <;> split at hhi <;> omega

/-- An instant that reads back lies within the supported years, its second within the day and its
nanoseconds within a leap second. -/
theorem Reparses.bounds {t : Instant} (h : t.Reparses) :
    -97000000 ≤ t.day ∧ t.day ≤ 97000000 ∧ t.second < 86400 ∧ t.nano < 2000000000 := by
  unfold Instant.Reparses Instant.parse at h
  split at h
  · rename_i t' ht
    cases h
    cases hf : Rfc3339.fields t.text with
    | error e =>
      rw [hf] at ht
      cases ht
    | ok f =>
      rw [hf] at ht
      obtain ⟨hlo, hhi, hsec, hnano⟩ := Rfc3339.Fields.instant_bounds ht
      have hfrac := Rfc3339.fields_nano_lt hf
      exact ⟨(day_bounds_of_year hlo hhi).1, (day_bounds_of_year hlo hhi).2, hsec, by omega⟩
  · cases h

theorem millisBetween_le_wordMax {a b : Instant} (ha : a.Reparses) (hb : b.Reparses) :
    millisBetween a b ≤ wordMax := by
  obtain ⟨ha₁, ha₂, ha₃, -⟩ := ha.bounds
  obtain ⟨hb₁, hb₂, hb₃, hb₄⟩ := hb.bounds
  have hmax : wordMax = 18446744073709551615 := by decide
  unfold millisBetween nanosBetween
  dsimp only
  split <;> split <;> (try split) <;> omega

end Instant

/-! ## What replaying keeps -/

theorem u64Max_eq_wordMax : Json.Reader.u64Max = wordMax := rfl

theorem satSum_le (xs : List Nat) : satSum xs ≤ wordMax := by
  rw [satSum_eq_min]
  exact Nat.min_le_right _ _

/-- The steps an event adds when it is accepted. -/
def EventKind.steps : EventKind → List Step
  | .stepAdded s => [s]
  | _ => []

namespace Trace

/-- What a replayed trace keeps of the storable parts of its events: its instants read back, the
retry count fits in 32 bits, and its agents, artifacts and incidents are storable. -/
structure Sound (t : Trace) : Prop where
  startedAt : t.startedAt.Reparses
  endedAt : ∀ i ∈ t.endedAt, i.Reparses
  execution : t.execution.Storable
  agents : ∀ a ∈ t.agents, a.Storable
  artifacts : ∀ a ∈ t.artifacts, a.Storable
  incidents : ∀ i ∈ t.incidents, i.Storable

variable {t t' u : Trace} {e : Event}

theorem Sound.refresh (h : t.Sound) : t.refresh.Sound :=
  ⟨h.startedAt, h.endedAt, h.execution, h.agents, h.artifacts, h.incidents⟩

theorem Sound.stamp (h : t.Sound) (n : Nat) : ({ t with lastSeq := n } : Trace).Sound :=
  ⟨h.startedAt, h.endedAt, h.execution, h.agents, h.artifacts, h.incidents⟩

/-- Changing one agent by a change that keeps agents storable keeps the agents storable. -/
theorem storable_updateAgent {f : AgentRun → AgentRun} {id : String} {a : AgentRun}
    (h : ∀ b ∈ t.agents, b.Storable) (ha : t.agent? id = some a) (hf : (f a).Storable) :
    ∀ b ∈ updateAgent f id t.agents, b.Storable := by
  intro b hb
  rcases mem_updateAgent ha hb with hb | rfl
  · exact h b hb
  · exact hf

/-- An accepted change keeps the trace sound: what it adds comes from a storable event. -/
theorem Accepts.sound (hu : t.Accepts e u) (h : t.Sound) (he : e.Storable) : u.Sound := by
  cases hu with
  | start _ _ ha _ =>
    have hold := h.agents _ (agent?_mem ha).1
    exact { h with
      agents := storable_updateAgent h.agents ha
        { hold with startedAt := fun i hi => by cases hi; exact he.time } }
  | finish _ _ ha _ _ =>
    have hold := h.agents _ (agent?_mem ha).1
    exact { h with
      agents := storable_updateAgent h.agents ha
        { hold with endedAt := fun i hi => by cases hi; exact he.time } }
  | @step s a hk ha _ _ _ _ =>
    have hold := h.agents _ (agent?_mem ha).1
    have hs : s.Storable := by simpa [EventKind.Storable, hk] using he.kind
    refine { h with agents := storable_updateAgent h.agents ha ⟨hold.startedAt, hold.endedAt, ?_, ?_⟩ }
    · intro x hx
      rcases List.mem_append.mp hx with hx | hx
      · exact hold.steps x hx
      · rw [List.mem_singleton.mp hx]
        exact hs
    · exact satAdd_le _ _
  | @artifact x hk =>
    have hx : x.Storable := by simpa [EventKind.Storable, hk] using he.kind
    refine { h with artifacts := fun y hy => ?_ }
    rcases List.mem_append.mp hy with hy | hy
    · exact h.artifacts y hy
    · rw [List.mem_singleton.mp hy]
      exact hx
  | @incident i hk =>
    have hi : i.Storable := by simpa [EventKind.Storable, hk] using he.kind
    have hincidents : ∀ j ∈ t.incidents ++ [i], j.Storable := by
      intro j hj
      rcases List.mem_append.mp hj with hj | hj
      · exact h.incidents j hj
      · rw [List.mem_singleton.mp hj]
        exact hi
    have hretry : (halfWordSucc t.execution.retryCount) ≤ Nat.pow 2 32 - 1 := by
      have hlt := Nat.mod_lt (t.execution.retryCount + 1) (show 0 < Nat.pow 2 32 by decide)
      unfold halfWordSucc
      omega
    exact { h with incidents := hincidents, execution := hretry }
  | complete _ _ => exact { h with endedAt := fun i hi => by cases hi; exact he.time }

/-- Changing one agent by a change that keeps its steps keeps the trace's steps. -/
theorem steps_updateAgent_of_keeps {f : AgentRun → AgentRun} {id : String} {a : AgentRun}
    (ha : t.agent? id = some a) (hf : (f a).steps = a.steps) :
    ({ t with agents := updateAgent f id t.agents } : Trace).steps = t.steps := by
  simp only [steps, List.flatMap_def, map_updateAgent ha hf]

theorem Accepts.steps_perm (hu : t.Accepts e u) : u.steps.Perm (t.steps ++ e.kind.steps) := by
  cases hu with
  | start hk _ ha _ =>
    simp only [hk, EventKind.steps, List.append_nil]
    exact .of_eq (steps_updateAgent_of_keeps ha rfl)
  | finish hk _ ha _ _ =>
    simp only [hk, EventKind.steps, List.append_nil]
    exact .of_eq (steps_updateAgent_of_keeps ha rfl)
  | @step s a hk ha _ _ _ _ =>
    simp only [hk, EventKind.steps]
    obtain ⟨pre, post, hsplit, hupd⟩ := updateAgent_split (f := AgentRun.grown s) ha
    show (updateAgent (AgentRun.grown s) s.agent t.agents).flatMap (·.steps)
      |>.Perm (t.agents.flatMap (·.steps) ++ [s])
    rw [hupd, hsplit]
    simp only [List.flatMap_append, List.flatMap_cons, AgentRun.grown, List.append_assoc,
      List.singleton_append]
    exact .append_left _ (.append_left _ (List.perm_append_singleton s _).symm)
  | artifact hk =>
    simp only [hk, EventKind.steps, List.append_nil]
    exact .refl _
  | incident hk =>
    simp only [hk, EventKind.steps, List.append_nil]
    exact .refl _
  | complete hk _ =>
    simp only [hk, EventKind.steps, List.append_nil]
    exact .refl _

theorem length_updateAgent (f : AgentRun → AgentRun) (id : String) (as : List AgentRun) :
    (updateAgent f id as).length = as.length := by
  induction as with
  | nil => rfl
  | cons a rest ih =>
    simp only [updateAgent]
    split <;> simp [ih]

theorem Accepts.agents_length (hu : t.Accepts e u) : u.agents.length = t.agents.length := by
  cases hu <;> simp [length_updateAgent]

/-! ## Replaying a log -/

/-- A replayed event keeps the trace sound, the number of agents, and adds at most one step. -/
theorem applyLogged_sound (h : t.Sound) (he : e.Storable) :
    (t.applyLogged e).1.Sound ∧ (t.applyLogged e).1.agents.length = t.agents.length ∧
      (t.applyLogged e).1.steps.length ≤ t.steps.length + 1 := by
  cases happ : t.apply e with
  | error err =>
    rw [applyLogged_of_error happ]
    exact ⟨h.stamp _, rfl, Nat.le_succ _⟩
  | ok t' =>
    rw [applyLogged_of_ok happ]
    rcases apply_eq_ok happ with ⟨-, rfl⟩ | ⟨-, u, hu, rfl⟩
    · exact ⟨h.stamp _, rfl, Nat.le_succ _⟩
    · have hsteps : e.kind.steps.length ≤ 1 := by
        cases e.kind <;> simp [EventKind.steps]
      refine ⟨((hu.sound h he).refresh).stamp _, hu.agents_length, ?_⟩
      have hperm := hu.steps_perm.length_eq
      rw [List.length_append] at hperm
      show u.steps.length ≤ _
      omega

/-- Replaying storable events keeps the trace sound and its agents, and adds at most one step per
event. -/
theorem foldl_applyLogged_sound {es : List Event} (hes : ∀ e ∈ es, e.Storable) (h : t.Sound) :
    let r := es.foldl (fun t e => (t.applyLogged e).1) t
    r.Sound ∧ r.agents.length = t.agents.length ∧ r.steps.length ≤ t.steps.length + es.length := by
  induction es generalizing t with
  | nil => exact ⟨h, rfl, by simp⟩
  | cons e rest ih =>
    obtain ⟨h₁, hagents₁, hsteps₁⟩ := applyLogged_sound h (hes e List.mem_cons_self)
    obtain ⟨h₂, hagents₂, hsteps₂⟩ := ih (fun e' he' => hes e' (List.mem_cons_of_mem _ he')) h₁
    refine ⟨h₂, hagents₂.trans hagents₁, ?_⟩
    simp only [List.foldl_cons, List.length_cons] at hsteps₂ ⊢
    omega

/-- A declared run is sound when it starts at an instant that reads back with storable settings. -/
theorem sound_new {runId projectId name : String} {specs : List AgentSpec} {exec : Execution}
    {time : Instant} (htime : time.Reparses) (hexec : exec.Storable) :
    (Trace.new runId projectId name specs exec time).Sound where
  startedAt := htime
  endedAt i hi := by simp [Trace.new, refresh] at hi
  execution := hexec
  agents a ha := by
    simp only [Trace.new, refresh, List.mem_map] at ha
    obtain ⟨s, -, rfl⟩ := ha
    exact ⟨fun i hi => by simp [AgentRun.declared] at hi, fun i hi => by simp [AgentRun.declared] at hi,
      fun _ h => by simp [AgentRun.declared] at h, Nat.zero_le _⟩
  artifacts a ha := by simp [Trace.new, refresh] at ha
  incidents i hi := by simp [Trace.new, refresh] at hi

/-- A sound trace whose summary is computed from it, whose agents and steps a 64-bit word counts
and whose watermark fits in one, is storable. -/
theorem storable_of_sound (h : t.Sound) (hsummary : t.summary = t.summarize)
    (hagents : t.agents.length ≤ wordMax) (hsteps : t.steps.length ≤ wordMax)
    (hseq : t.lastSeq ≤ wordMax) : t.Storable := by
  refine ⟨h.startedAt, h.endedAt, h.execution, h.agents, h.artifacts, h.incidents, ?_, hseq⟩
  have hfilter : ∀ p : AgentRun → Bool, (t.agents.filter p).length ≤ wordMax :=
    fun p => (List.length_filter_le _ _).trans hagents
  have hsfilter : ∀ p : Step → Bool, (t.steps.filter p).length ≤ wordMax :=
    fun p => (List.length_filter_le _ _).trans hsteps
  rw [hsummary]
  refine ⟨hagents, hfilter _, hfilter _, hsfilter _, hsfilter _, satSum_le _, ?_⟩
  cases hend : t.endedAt with
  | none => simp only [summarize, hend, Nat.zero_le]
  | some i =>
    simpa only [summarize, hend, u64Max_eq_wordMax] using Instant.millisBetween_le_wordMax h.startedAt (h.endedAt i hend)

/-- A trace replayed from storable events is storable, when its run declares no more agents than
a 64-bit word counts and the log holds no more events. -/
theorem rebuild_storable {L : List Event} (hL : ∀ e ∈ L, e.Storable)
    (hspecs : ∀ e ∈ L, ∀ name specs exec, e.kind = .runStarted name specs exec →
      specs.length ≤ wordMax)
    (hlen : L.length ≤ wordMax) (h : rebuild L = some t) : t.Storable := by
  have hcounted := counted_rebuild h
  have hseq : t.lastSeq ≤ wordMax := by
    obtain ⟨x, hx, hxseq⟩ := List.mem_map.mp (rebuild_watermark h).2
    exact hxseq ▸ (hL x hx).seq
  cases L with
  | nil => cases h
  | cons first rest =>
    simp only [rebuild] at h
    split at h
    · rename_i name specs exec hk
      cases h
      have hfirst := hL first List.mem_cons_self
      have hexec : exec.Storable := by simpa [EventKind.Storable, hk] using hfirst.kind
      have hstart : (Trace.new first.runId (first.projectId.getD "") name specs exec
          first.time).Sound := sound_new hfirst.time hexec
      obtain ⟨hsound, hagents, hsteps⟩ := foldl_applyLogged_sound
        (fun e he => hL e (List.mem_cons_of_mem _ he)) (hstart.stamp first.seq)
      refine storable_of_sound hsound hcounted.summary_eq ?_ ?_ hseq
      · rw [hagents]
        simpa [Trace.new, refresh] using hspecs first List.mem_cons_self name specs exec hk
      · have hnone : ({ Trace.new first.runId (first.projectId.getD "") name specs exec first.time with
            lastSeq := first.seq } : Trace).steps = [] := by
          simp [steps, Trace.new, refresh, AgentRun.declared]
        rw [hnone] at hsteps
        simp only [List.length_nil, Nat.zero_add] at hsteps
        simp only [List.length_cons] at hlen
        omega
    · cases h

end Trace

end RunJournal
