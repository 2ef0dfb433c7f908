import RunJournal.Proofs.JsonDecode
import RunJournal.Store.Runs
/-!
# Trace files and log lines read back

A log line is read back as the event it was written from, and a trace file as the trace it was
written from. Two things are assumed, and gathered as `Event.Storable` and `Trace.Storable`: every
number fits the width its reader takes (64 bits, the retry count 32), and every instant reads back
from its RFC 3339 text. Nothing else can be lost: the flattened kind of a step or of an event
shares no key with the record it is flattened into, and an absent optional value is read back as
absent.

Each reader decodes its writer (`Decodes`), type by type, from the typed readers of
`Proofs.JsonDecode`; a step and an event are flat records whose held-back members name their
variant and are read again as that variant's record.
-/

namespace RunJournal

open Json

/-- The instant reads back from its RFC 3339 text. -/
def Instant.Reparses (t : Instant) : Prop := Instant.parse t.text = .ok t

/-- The token counts of a model call fit in 64 bits. -/
def StepDetail.Storable : StepDetail → Prop
  | .llm _ _ tokensIn tokensOut _ _ => tokensIn ≤ Reader.u64Max ∧ tokensOut ≤ Reader.u64Max
  | _ => True

/-- A step whose instants read back and whose numbers fit in 64 bits. -/
structure Step.Storable (s : Step) : Prop where
  startedAt : ∀ t ∈ s.startedAt, t.Reparses
  endedAt : ∀ t ∈ s.endedAt, t.Reparses
  latency : ∀ n ∈ s.latencyMs, n ≤ Reader.u64Max
  detail : s.detail.Storable

def Execution.Storable (e : Execution) : Prop := e.retryCount ≤ Nat.pow 2 32 - 1

/-- An agent's run whose instants read back, whose steps are storable and whose token total fits
in 64 bits. -/
structure AgentRun.Storable (a : AgentRun) : Prop where
  startedAt : ∀ t ∈ a.startedAt, t.Reparses
  endedAt : ∀ t ∈ a.endedAt, t.Reparses
  steps : ∀ s ∈ a.steps, s.Storable
  tokens : a.totalTokens ≤ Reader.u64Max

/-- An artifact whose instant reads back and whose size fits in 64 bits. -/
structure Artifact.Storable (a : Artifact) : Prop where
  createdAt : a.createdAt.Reparses
  size : ∀ n ∈ a.sizeBytes, n ≤ Reader.u64Max

def Incident.Storable (i : Incident) : Prop := i.time.Reparses

/-- Every counter fits in 64 bits. -/
structure Summary.Storable (s : Summary) : Prop where
  totalAgents : s.totalAgents ≤ Reader.u64Max
  completedAgents : s.completedAgents ≤ Reader.u64Max
  failedAgents : s.failedAgents ≤ Reader.u64Max
  totalLlmCalls : s.totalLlmCalls ≤ Reader.u64Max
  totalToolCalls : s.totalToolCalls ≤ Reader.u64Max
  totalTokens : s.totalTokens ≤ Reader.u64Max
  totalDurationMs : s.totalDurationMs ≤ Reader.u64Max

/-- A trace whose instants read back and whose numbers fit their widths, in every part. -/
structure Trace.Storable (t : Trace) : Prop where
  startedAt : t.startedAt.Reparses
  endedAt : ∀ e ∈ t.endedAt, e.Reparses
  execution : t.execution.Storable
  agents : ∀ a ∈ t.agents, a.Storable
  artifacts : ∀ a ∈ t.artifacts, a.Storable
  incidents : ∀ i ∈ t.incidents, i.Storable
  summary : t.summary.Storable
  lastSeq : t.lastSeq ≤ Reader.u64Max

/-- What an event's kind needs to be stored faithfully. -/
def EventKind.Storable : EventKind → Prop
  | .runStarted _ _ execution => execution.Storable
  | .stepAdded step => step.Storable
  | .artifactAdded artifact => artifact.Storable
  | .incidentAdded incident => incident.Storable
  | _ => True

/-- An event whose sequence number fits in 64 bits, whose instant reads back, and whose kind is
storable. -/
structure Event.Storable (e : Event) : Prop where
  seq : e.seq ≤ Reader.u64Max
  time : e.time.Reparses
  kind : e.kind.Storable

namespace Json

section Scalars

theorem Decodes.u64 : Decodes Reader.u64 Json.ofNat (· ≤ Reader.u64Max) :=
  Decodes.unsigned (Nat.le_refl _)

theorem Decodes.u32 : Decodes Reader.u32 Json.ofNat (· ≤ Nat.pow 2 32 - 1) :=
  Decodes.unsigned (by decide)

theorem Decodes.instant : Decodes Read.instant Instant.toJson Instant.Reparses :=
  Decodes.stringWith fun _ h => h

/-- A field-less variant written as its name, read back through its position among the names of
all variants. -/
theorem Decodes.unitVariant {σ : Type} (all : List σ) (name : σ → String) (fallback : σ)
    (hall : ∀ x, ∃ i, indexOf? (all.map name) (name x) = some i ∧ all.getD i fallback = x) :
    Decodes (do let i ← Reader.unitVariant (all.map name); Pure.pure (all.getD i fallback))
      (fun x => .str (name x)) fun _ => True := by
  intro x _
  obtain ⟨i, hi, hx⟩ := hall x
  refine ⟨rfl, fun src p k d bs s hbs _ _ => ?_⟩
  refine (Reads.unitVariant hi src p k d s hbs).bind ?_
  rw [hx]
  exact Reads.pure x

theorem Decodes.runStatus : Decodes Read.runStatus (fun s => .str s.name) fun _ => True :=
  Decodes.unitVariant RunStatus.all RunStatus.name .running fun x => by
    cases x <;> exact ⟨_, rfl, rfl⟩

theorem Decodes.agentStatus : Decodes Read.agentStatus (fun s => .str s.name) fun _ => True :=
  Decodes.unitVariant AgentStatus.all AgentStatus.name .pending fun x => by
    cases x <;> exact ⟨_, rfl, rfl⟩

theorem Decodes.stepStatus : Decodes Read.stepStatus (fun s => .str s.name) fun _ => True :=
  Decodes.unitVariant StepStatus.all StepStatus.name .ok fun x => by
    cases x <;> exact ⟨_, rfl, rfl⟩

theorem Decodes.strings : Decodes Read.strings stringsJson fun _ => True :=
  (Decodes.list Decodes.str).mono fun _ _ _ _ => trivial

end Scalars

section Records

theorem Decodes.agentSpec : Decodes Read.agentSpec AgentSpec.toJson fun _ => True :=
  Decodes.record (by decide) (fun a => [some (.str a.id), some (.str a.preset), some (.str a.purpose)])
    (fun _ => rfl) fun a _ src p k d hd => by
      have hd0 : 0 < d := hd _ (List.mem_cons_self ..)
      exact .read (fun _ => rfl) Decodes.str trivial hd0 <|
        .read (fun _ => rfl) Decodes.str trivial hd0 <|
        .read (fun _ => rfl) Decodes.str trivial hd0 <| .nil a

theorem Decodes.execution : Decodes Read.execution Execution.toJson Execution.Storable :=
  Decodes.record (by decide) (fun e => [some (.str e.mode), some (.ofNat e.retryCount)])
    (fun _ => rfl) fun e he src p k d hd => by
      have hd0 : 0 < d := hd _ (List.mem_cons_self ..)
      exact .read (fun _ => rfl) Decodes.str trivial hd0 <|
        .read (fun _ => rfl) Decodes.u32 he hd0 <| .nil e

theorem Decodes.artifact : Decodes Read.artifact Artifact.toJson Artifact.Storable :=
  Decodes.record (by decide)
    (fun a => [some (.str a.id), some (.str a.kind), some (.str a.path), some (.str a.createdBy),
      some a.createdAt.toJson, a.sizeBytes.map .ofNat])
    (fun _ => rfl) fun a ha src p k d hd => by
      have hd0 : 0 < d := hd _ (List.mem_cons_self ..)
      exact .read (fun _ => rfl) Decodes.str trivial hd0 <|
        .read (fun _ => rfl) Decodes.str trivial hd0 <|
        .read (fun _ => rfl) Decodes.str trivial hd0 <|
        .read (fun _ => rfl) Decodes.str trivial hd0 <|
        .read (fun _ => rfl) Decodes.instant ha.createdAt hd0 <|
        .option (fun _ => rfl) (by decide) Decodes.u64 (fun _ _ => by simp [Json.ofNat]) ha.size
          (fun _ _ => hd0) rfl <| .nil a

theorem Decodes.incident : Decodes Read.incident Incident.toJson Incident.Storable :=
  Decodes.record (by decide)
    (fun i => [some (.str i.stepId), some (.str i.agent), some (.str i.kind), some (.str i.message),
      some i.time.toJson, some (.bool i.recoverable)])
    (fun _ => rfl) fun i hi src p k d hd => by
      have hd0 : 0 < d := hd _ (List.mem_cons_self ..)
      exact .read (fun _ => rfl) Decodes.str trivial hd0 <|
        .read (fun _ => rfl) Decodes.str trivial hd0 <|
        .read (fun _ => rfl) Decodes.str trivial hd0 <|
        .read (fun _ => rfl) Decodes.str trivial hd0 <|
        .read (fun _ => rfl) Decodes.instant hi hd0 <|
        .read (fun _ => rfl) Decodes.bool trivial hd0 <| .nil i

theorem Decodes.summary : Decodes Read.summary Summary.toJson Summary.Storable :=
  Decodes.record (by decide)
    (fun s => [some (.ofNat s.totalAgents), some (.ofNat s.completedAgents),
      some (.ofNat s.failedAgents), some (.ofNat s.totalLlmCalls), some (.ofNat s.totalToolCalls),
      some (.ofNat s.totalTokens), some (.ofNat s.totalDurationMs)])
    (fun _ => rfl) fun s hs src p k d hd => by
      have hd0 : 0 < d := hd _ (List.mem_cons_self ..)
      exact .read (fun _ => rfl) Decodes.u64 hs.totalAgents hd0 <|
        .read (fun _ => rfl) Decodes.u64 hs.completedAgents hd0 <|
        .read (fun _ => rfl) Decodes.u64 hs.failedAgents hd0 <|
        .read (fun _ => rfl) Decodes.u64 hs.totalLlmCalls hd0 <|
        .read (fun _ => rfl) Decodes.u64 hs.totalToolCalls hd0 <|
        .read (fun _ => rfl) Decodes.u64 hs.totalTokens hd0 <|
        .read (fun _ => rfl) Decodes.u64 hs.totalDurationMs hd0 <| .nil s

end Records

section Steps

theorem members_eq_present (fields : List (String × Option Json)) :
    Json.members fields = .obj (present fields) := rfl

theorem present_append (xs ys : List (String × Option Json)) :
    present (xs ++ ys) = present xs ++ present ys :=
  List.filterMap_append

theorem mem_present_key {fields : List (String × Option Json)} {m : String × Json}
    (hm : m ∈ present fields) : m.1 ∈ fields.map Prod.fst := by
  obtain ⟨⟨k, v⟩, hmem, hkv⟩ := List.mem_filterMap.mp hm
  obtain ⟨x, -, rfl⟩ := Option.map_eq_some_iff.mp hkv
  exact List.mem_map.mpr ⟨_, hmem, rfl⟩

/-- A variant's members as held back by a flat record: its tag, then its fields, none of whose
keys the record knows. -/
theorem tagged_unknown {keys : List String} {tag name : String}
    {fields : List (String × Option Json)} (ks : List String) (htag : tag ∉ keys)
    (hks : fields.map Prod.fst = ks) (hkeys : ∀ key ∈ ks, key ∉ keys)
    (hplain : plainMembers (present fields) = true) :
    ∀ m ∈ present ((tag, some (.str name)) :: fields), m.1 ∉ keys ∧ m.2.plain := by
  intro m hm
  rcases List.mem_cons.mp hm with rfl | hm
  · exact ⟨htag, rfl⟩
  · exact ⟨hkeys _ (hks ▸ mem_present_key hm), (plainMembers_iff _).mp hplain m hm⟩

@[simp] theorem nesting_stringsJson (xs : List String) : nesting (stringsJson xs) = 1 := by
  induction xs with
  | nil => rfl
  | cons x xs ih =>
    simp only [stringsJson, List.map_cons, nesting, nestingItems] at ih ⊢
    omega

/-- The fields of an `INPUT` or `OUTPUT` detail: two optional lists of strings. -/
theorem listPair_fieldsRead (src : Source) {d : Nat} {p : Bool} {k : Nat} (hd : 1 < d)
    (first second : String) (o₁ o₂ : Option (List String)) :
    FieldsRead src d p k
      [Read.field first .defaulted (Reader.option Read.strings) fun a v => (v, a.2),
       Read.field second .defaulted (Reader.option Read.strings) fun a v => (a.1, v)]
      [o₁.map stringsJson, o₂.map stringsJson] (none, none) (o₁, o₂) :=
  .option (fun _ => rfl) (by simp [Read.field]) Decodes.strings (fun _ _ => by simp [stringsJson])
    (fun _ _ => trivial) (fun _ _ => by simpa using hd) rfl <|
  .option (fun _ => rfl) (by simp [Read.field]) Decodes.strings (fun _ _ => by simp [stringsJson])
    (fun _ _ => trivial) (fun _ _ => by simpa using hd) rfl <| .nil _

theorem llm_fieldsRead (src : Source) {d : Nat} {p : Bool} {k : Nat} (hd : 0 < d)
    (provider model : String) {tokensIn tokensOut : Nat} (hin : tokensIn ≤ Reader.u64Max)
    (hout : tokensOut ≤ Reader.u64Max) (ins outs : Option String) :
    FieldsRead src d p k Read.llmDetail.fields
      [some (.str provider), some (.str model), some (.ofNat tokensIn), some (.ofNat tokensOut),
       ins.map .str, outs.map .str] Read.llmDetail.init
      (.llm provider model tokensIn tokensOut ins outs) :=
  .read (fun _ => rfl) Decodes.str trivial hd <|
  .read (fun _ => rfl) Decodes.str trivial hd <|
  .read (fun _ => rfl) Decodes.u64 hin hd <|
  .read (fun _ => rfl) Decodes.u64 hout hd <|
  .option (fun _ => rfl) (by decide) Decodes.str (fun _ _ => by simp) (fun _ _ => trivial)
    (fun _ _ => hd) rfl <|
  .option (fun _ => rfl) (by decide) Decodes.str (fun _ _ => by simp) (fun _ _ => trivial)
    (fun _ _ => hd) rfl <| .nil _

theorem tool_fieldsRead (src : Source) {d : Nat} {p : Bool} {k : Nat} (hd : 0 < d)
    (name : String) (ins outs : Option String) :
    FieldsRead src d p k Read.toolDetail.fields [some (.str name), ins.map .str, outs.map .str]
      Read.toolDetail.init (.tool name ins outs) :=
  .read (fun _ => rfl) Decodes.str trivial hd <|
  .option (fun _ => rfl) (by decide) Decodes.str (fun _ _ => by simp) (fun _ _ => trivial)
    (fun _ _ => hd) rfl <|
  .option (fun _ => rfl) (by decide) Decodes.str (fun _ _ => by simp) (fun _ _ => trivial)
    (fun _ _ => hd) rfl <| .nil _

theorem Reads.bufferedRecord {fmt : RecordFormat α} (hkeys : (RecordFormat.keys fmt.fields).Nodup)
    {vs : List (Option Json)} {fields : List (String × Option Json)} {b : α}
    (h : FieldsRead .buffered 127 false 1 fmt.fields vs fmt.init b)
    (hfields : (fmt.fields.map RecordField.name).zip vs = fields) (src : Source) (d : Nat)
    (t : List UInt8) :
    Reads src d (Reader.buffered (Reader.record fmt) (.obj (present fields))) t t b := by
  subst hfields
  exact Reads.buffered (Reads.record (d := 128) hkeys h (by decide) [] fun _ h => absurd h List.not_mem_nil) t

/-- A step's detail, held back by the step's reader, is read from the held members without
consuming any input. -/
theorem Reads.stepDetail {detail : StepDetail} (hdetail : detail.Storable) (src : Source)
    (d : Nat) (t : List UInt8) :
    Reads src d (Read.stepDetail (present detail.members)) t t detail := by
  -- per variant: the tag picks it out of the kinds in order, and the members left read back as
  -- the variant's record
  cases detail with
  | input context previous =>
    have hsel : selectVariant "type" (StepKind.all.map StepKind.name)
        (present (StepDetail.input context previous).members) =
        .ok (0, present [("context", context.map stringsJson),
          ("previous_results", previous.map stringsJson)]) :=
      selectVariant_tagged rfl fun m hm => by have := mem_present_key hm; simp at this; grind
    have hread := @Reads.bufferedRecord _ Read.inputDetail (by decide) _ _ _
      (listPair_fieldsRead .buffered (by decide) "context" "previous_results" context previous) rfl
      src d t
    rw [Read.stepDetail, hsel]
    exact hread.bind (Reads.pure _)
  | llm provider model tokensIn tokensOut ins outs =>
    have hsel : selectVariant "type" (StepKind.all.map StepKind.name)
        (present (StepDetail.llm provider model tokensIn tokensOut ins outs).members) =
        .ok (1, present [("provider", some (.str provider)), ("model", some (.str model)),
          ("tokens_input", some (.ofNat tokensIn)), ("tokens_output", some (.ofNat tokensOut)),
          ("input_summary", ins.map .str), ("output_summary", outs.map .str)]) :=
      selectVariant_tagged rfl fun m hm => by have := mem_present_key hm; simp at this; grind
    have hread := Reads.bufferedRecord (by decide)
      (llm_fieldsRead .buffered (by decide) provider model hdetail.1 hdetail.2 ins outs) rfl
      src d t
    rw [Read.stepDetail, hsel]
    exact hread
  | tool name ins outs =>
    have hsel : selectVariant "type" (StepKind.all.map StepKind.name)
        (present (StepDetail.tool name ins outs).members) =
        .ok (2, present [("tool_name", some (.str name)), ("input_summary", ins.map .str),
          ("output_summary", outs.map .str)]) :=
      selectVariant_tagged rfl fun m hm => by have := mem_present_key hm; simp at this; grind
    have hread := Reads.bufferedRecord (by decide)
      (tool_fieldsRead .buffered (by decide) name ins outs) rfl src d t
    rw [Read.stepDetail, hsel]
    exact hread
  | output keys ids =>
    have hsel : selectVariant "type" (StepKind.all.map StepKind.name)
        (present (StepDetail.output keys ids).members) =
        .ok (3, present [("output_keys", keys.map stringsJson),
          ("artifact_ids", ids.map stringsJson)]) :=
      selectVariant_tagged rfl fun m hm => by have := mem_present_key hm; simp at this; grind
    have hread := @Reads.bufferedRecord _ Read.outputDetail (by decide) _ _ _
      (listPair_fieldsRead .buffered (by decide) "output_keys" "artifact_ids" keys ids) rfl src d t
    rw [Read.stepDetail, hsel]
    exact hread.bind (Reads.pure _)

/-- The members a step holds back are its detail's: none is a key of the step's own fields. -/
theorem detail_unknown {detail : StepDetail} (hdetail : detail.Storable) :
    ∀ m ∈ present detail.members,
      m.1 ∉ RecordFormat.keys Read.stepFields.fields ∧ m.2.plain := by
  cases detail with
  | input context previous =>
    exact tagged_unknown ["context", "previous_results"] (by decide) rfl (by decide)
      ((listPair_fieldsRead .text (p := false) (k := 0) (d := 2) (by decide) "context"
        "previous_results" context previous).plain ["context", "previous_results"])
  | llm provider model tokensIn tokensOut ins outs =>
    exact tagged_unknown ["provider", "model", "tokens_input", "tokens_output", "input_summary",
      "output_summary"] (by decide) rfl (by decide)
      ((llm_fieldsRead .text (p := false) (k := 0) (d := 1) (by decide) provider model
        hdetail.1 hdetail.2 ins outs).plain (Read.llmDetail.fields.map RecordField.name))
  | tool name ins outs =>
    exact tagged_unknown ["tool_name", "input_summary", "output_summary"] (by decide) rfl
      (by decide) ((tool_fieldsRead .text (p := false) (k := 0) (d := 1) (by decide) name
        ins outs).plain (Read.toolDetail.fields.map RecordField.name))
  | output keys ids =>
    exact tagged_unknown ["output_keys", "artifact_ids"] (by decide) rfl (by decide)
      ((listPair_fieldsRead .text (p := false) (k := 0) (d := 2) (by decide) "output_keys"
        "artifact_ids" keys ids).plain ["output_keys", "artifact_ids"])

end Steps

theorem Decodes.step : Decodes Read.step Step.toJson Step.Storable :=
  Decodes.flatRecord (by decide)
    (fun s => [some (.str s.id), some (.str s.agent), some (.str s.status.name),
      s.startedAt.map Instant.toJson, s.endedAt.map Instant.toJson, s.latencyMs.map .ofNat,
      s.error.map .str])
    (fun s => present s.detail.members)
    (fun s => by rw [Step.toJson, members_eq_present, present_append]; rfl)
    (fun _ hs => detail_unknown hs.detail) fun s hs src p k d hd => by
      have hd0 : 0 < d := hd _ (List.mem_cons_self ..)
      refine ⟨{ s with detail := .input none none }, ?_, fun t => ?_⟩
      · exact .read (fun _ => rfl) Decodes.str trivial hd0 <|
          .read (fun _ => rfl) Decodes.str trivial hd0 <|
          .read (fun _ => rfl) Decodes.stepStatus trivial hd0 <|
          .option (fun _ => rfl) (by simp [Read.field]) Decodes.instant
            (fun _ _ => by simp [Instant.toJson]) hs.startedAt (fun _ _ => hd0) rfl <|
          .option (fun _ => rfl) (by simp [Read.field]) Decodes.instant
            (fun _ _ => by simp [Instant.toJson]) hs.endedAt (fun _ _ => hd0) rfl <|
          .option (fun _ => rfl) (by simp [Read.field]) Decodes.u64
            (fun _ _ => by simp [Json.ofNat]) hs.latency (fun _ _ => hd0) rfl <|
          .option (fun _ => rfl) (by simp [Read.field]) Decodes.str
            (fun _ _ => by simp) (fun _ _ => trivial) (fun _ _ => hd0) rfl <| .nil _
      · exact (Reads.stepDetail hs.detail src d t).bind (Reads.pure _)

theorem Decodes.agentRun : Decodes Read.agentRun AgentRun.toJson AgentRun.Storable :=
  Decodes.record (by decide)
    (fun a => [some (.str a.id), some (.str a.preset), some (.str a.purpose),
      some (.str a.status.name), a.startedAt.map Instant.toJson, a.endedAt.map Instant.toJson,
      some (.arr (a.steps.map Step.toJson)), some (.ofNat a.totalTokens), a.error.map .str])
    (fun _ => rfl) fun a ha src p k d hd => by
      have hd0 : 0 < d := hd _ (List.mem_cons_self ..)
      have hsteps : nesting (.arr (a.steps.map Step.toJson)) < d :=
        nesting_field_lt hd "steps" (by simp [Read.field])
      exact .read (fun _ => rfl) Decodes.str trivial hd0 <|
        .read (fun _ => rfl) Decodes.str trivial hd0 <|
        .read (fun _ => rfl) Decodes.str trivial hd0 <|
        .read (fun _ => rfl) Decodes.agentStatus trivial hd0 <|
        .option (fun _ => rfl) (by simp [Read.field]) Decodes.instant
          (fun _ _ => by simp [Instant.toJson]) ha.startedAt (fun _ _ => hd0) rfl <|
        .option (fun _ => rfl) (by simp [Read.field]) Decodes.instant
          (fun _ _ => by simp [Instant.toJson]) ha.endedAt (fun _ _ => hd0) rfl <|
        .read (fun _ => rfl) (Decodes.list Decodes.step) ha.steps hsteps <|
        .read (fun _ => rfl) Decodes.u64 ha.tokens hd0 <|
        .option (fun _ => rfl) (by simp [Read.field]) Decodes.str
          (fun _ _ => by simp) (fun _ _ => trivial) (fun _ _ => hd0) rfl <| .nil a

theorem Decodes.trace : Decodes Read.trace Trace.toJson Trace.Storable :=
  Decodes.record (by decide)
    (fun t => [some (.str t.version), some (.str t.runId), some (.str t.projectId),
      some (.str t.projectName), some (.str t.status.name), some t.startedAt.toJson,
      t.endedAt.map Instant.toJson, some (.arr (t.agentSpecs.map AgentSpec.toJson)),
      some t.execution.toJson, some (.arr (t.agents.map AgentRun.toJson)),
      some (.arr (t.artifacts.map Artifact.toJson)), some (.arr (t.incidents.map Incident.toJson)),
      some t.summary.toJson, some (.ofNat t.lastSeq)])
    (fun _ => rfl) fun t ht src p k d hd => by
      have hd0 : 0 < d := hd _ (List.mem_cons_self ..)
      have hspecs : nesting (.arr (t.agentSpecs.map AgentSpec.toJson)) < d :=
        nesting_field_lt hd "agents_config" (by simp [Read.field])
      have hexecution : nesting t.execution.toJson < d :=
        nesting_field_lt hd "execution_config" (by simp [Read.field])
      have hagents : nesting (.arr (t.agents.map AgentRun.toJson)) < d :=
        nesting_field_lt hd "agents" (by simp [Read.field])
      have hartifacts : nesting (.arr (t.artifacts.map Artifact.toJson)) < d :=
        nesting_field_lt hd "artifacts" (by simp [Read.field])
      have hincidents : nesting (.arr (t.incidents.map Incident.toJson)) < d :=
        nesting_field_lt hd "errors" (by simp [Read.field])
      have hsummary : nesting t.summary.toJson < d :=
        nesting_field_lt hd "summary" (by simp [Read.field])
      exact .read (fun _ => rfl) Decodes.str trivial hd0 <|
        .read (fun _ => rfl) Decodes.str trivial hd0 <|
        .read (fun _ => rfl) Decodes.str trivial hd0 <|
        .read (fun _ => rfl) Decodes.str trivial hd0 <|
        .read (fun _ => rfl) Decodes.runStatus trivial hd0 <|
        .read (fun _ => rfl) Decodes.instant ht.startedAt hd0 <|
        .option (fun _ => rfl) (by simp [Read.field]) Decodes.instant
          (fun _ _ => by simp [Instant.toJson]) ht.endedAt (fun _ _ => hd0) rfl <|
        .read (fun _ => rfl) (Decodes.list Decodes.agentSpec) (fun _ _ => trivial) hspecs <|
        .read (fun _ => rfl) Decodes.execution ht.execution hexecution <|
        .read (fun _ => rfl) (Decodes.list Decodes.agentRun) ht.agents hagents <|
        .read (fun _ => rfl) (Decodes.list Decodes.artifact) ht.artifacts hartifacts <|
        .read (fun _ => rfl) (Decodes.list Decodes.incident) ht.incidents hincidents <|
        .read (fun _ => rfl) Decodes.summary ht.summary hsummary <|
        .read (fun _ => rfl) Decodes.u64 ht.lastSeq hd0 <| .nil t

section Depth

/-! Every trace and event nests a fixed number of containers deep, far below the reader's limit. -/

@[simp] theorem nesting_str (s : String) : nesting (.str s) = 0 := rfl

@[simp] theorem nesting_ofNat (n : Nat) : nesting (.ofNat n) = 0 := rfl

@[simp] theorem nesting_instant (t : Instant) : nesting t.toJson = 0 := rfl

@[simp] theorem plain_str (s : String) : (Json.str s).plain = true := rfl

theorem nesting_members_le {fields : List (String × Option Json)} {n : Nat}
    (h : ∀ o ∈ fields.map Prod.snd, ∀ v ∈ o, nesting v ≤ n) : nesting (Json.members fields) ≤ n + 1 := by
  have hmembers : nestingMembers (present fields) ≤ n := by
    rw [nestingMembers_le_iff]
    intro m hm
    obtain ⟨⟨k, o⟩, hmem, hkv⟩ := List.mem_filterMap.mp hm
    obtain ⟨v, rfl, rfl⟩ := Option.map_eq_some_iff.mp hkv
    exact h _ (List.mem_map_of_mem hmem) v rfl
  rw [members_eq_present, nesting]
  omega

theorem nesting_arr_le {xs : List α} {enc : α → Json} {n : Nat} (h : ∀ x ∈ xs, nesting (enc x) ≤ n) :
    nesting (.arr (xs.map enc)) ≤ n + 1 := by
  have hitems : nestingItems (xs.map enc) ≤ n := by
    rw [nestingItems_le_iff]
    intro v hv
    obtain ⟨x, hx, rfl⟩ := List.mem_map.mp hv
    exact h x hx
  rw [nesting]
  omega

theorem nesting_agentSpec (a : AgentSpec) : nesting a.toJson ≤ 1 := by
  simp [AgentSpec.toJson, nesting, nestingMembers]

theorem nesting_execution (e : Execution) : nesting e.toJson ≤ 1 := by
  simp [Execution.toJson, nesting, nestingMembers, Json.ofNat]

theorem nesting_incident (i : Incident) : nesting i.toJson ≤ 1 := by
  simp [Incident.toJson, nesting, nestingMembers, Instant.toJson]

theorem nesting_summary (s : Summary) : nesting s.toJson ≤ 1 := by
  simp [Summary.toJson, nesting, nestingMembers, Json.ofNat]

theorem nesting_artifact (a : Artifact) : nesting a.toJson ≤ 1 :=
  nesting_members_le (by simp)

theorem nesting_step (s : Step) : nesting s.toJson ≤ 2 := by
  apply nesting_members_le
  cases s.detail <;> simp [StepDetail.members]

theorem nesting_agentRun (a : AgentRun) : nesting a.toJson ≤ 4 := by
  have hsteps := nesting_arr_le (n := 2) fun s (_ : s ∈ a.steps) => nesting_step s
  apply nesting_members_le
  simp
  omega

theorem nesting_trace (t : Trace) : nesting t.toJson ≤ 6 := by
  have hspecs := nesting_arr_le (n := 1) fun a (_ : a ∈ t.agentSpecs) => nesting_agentSpec a
  have hagents := nesting_arr_le (n := 4) fun a (_ : a ∈ t.agents) => nesting_agentRun a
  have hartifacts := nesting_arr_le (n := 1) fun a (_ : a ∈ t.artifacts) => nesting_artifact a
  have hincidents := nesting_arr_le (n := 1) fun i (_ : i ∈ t.incidents) => nesting_incident i
  have := nesting_execution t.execution
  have := nesting_summary t.summary
  apply nesting_members_le
  simp
  omega

end Depth

section Events

theorem kindMembers_ne_type (kind : EventKind) : ∀ m ∈ present (Event.kindMembers kind), m.1 ≠ "type" := by
  intro m hm
  have hkey := mem_present_key hm
  cases kind <;> simp [Event.kindMembers] at hkey <;> grind

/-- An event's held-back members lead with its kind's name; the rest are the kind's fields. -/
theorem selectVariant_kind (kind : EventKind) {i : Nat} (hi : indexOf? EventKind.names kind.name = some i) :
    selectVariant "type" EventKind.names
      (present (("type", some (.str kind.name)) :: Event.kindMembers kind)) =
      .ok (i, present (Event.kindMembers kind)) :=
  selectVariant_tagged hi (kindMembers_ne_type kind)

/-- An event's kind, held back by the event's reader, is read from the held members without
consuming any input. -/
theorem Reads.eventKind {kind : EventKind} (hkind : kind.Storable) (src : Source) (d : Nat)
    (t : List UInt8) :
    Reads src d (Read.eventKind (present (("type", some (.str kind.name)) :: Event.kindMembers kind)))
      t t kind := by
  -- per kind: the tag selects it, and the kind's own members read back as a record of its fields
  cases kind with
  | runStarted name specs execution =>
    have hspecs := nesting_arr_le (n := 1) fun a (_ : a ∈ specs) => nesting_agentSpec a
    have hexecution := nesting_execution execution
    rw [Read.eventKind, selectVariant_kind (.runStarted name specs execution) rfl]
    apply Reads.bufferedRecord
    case hkeys => decide
    case h =>
      exact .read (fun _ => rfl) Decodes.str trivial (by simp) <|
        .read (fun _ => rfl) (Decodes.list Decodes.agentSpec) (fun _ _ => trivial) (by omega) <|
        .read (fun _ => rfl) Decodes.execution hkind (by omega) <| .nil _
    case hfields => rfl
  | runCompleted status =>
    rw [Read.eventKind, selectVariant_kind (.runCompleted status) rfl]
    apply Reads.bufferedRecord
    case hkeys => decide
    case h => exact .read (fun _ => rfl) Decodes.runStatus trivial (by simp) <| .nil _
    case hfields => rfl
  | agentStarted =>
    rw [Read.eventKind, selectVariant_kind .agentStarted rfl]
    exact Reads.pure _
  | agentCompleted status error =>
    rw [Read.eventKind, selectVariant_kind (.agentCompleted status error) rfl]
    apply Reads.bufferedRecord
    case hkeys => decide
    case h =>
      exact .read (fun _ => rfl) Decodes.agentStatus trivial (by simp) <|
        .option (fun _ => rfl) (by simp [Read.field]) Decodes.str (fun _ _ => by simp)
          (fun _ _ => trivial) (fun _ _ => by simp) rfl <| .nil _
    case hfields => rfl
  | stepAdded step =>
    have hstep := nesting_step step
    rw [Read.eventKind, selectVariant_kind (.stepAdded step) rfl]
    apply Reads.bufferedRecord
    case hkeys => decide
    case h => exact .read (fun _ => rfl) Decodes.step hkind (by omega) <| .nil _
    case hfields => rfl
  | artifactAdded artifact =>
    have hartifact := nesting_artifact artifact
    rw [Read.eventKind, selectVariant_kind (.artifactAdded artifact) rfl]
    apply Reads.bufferedRecord
    case hkeys => decide
    case h => exact .read (fun _ => rfl) Decodes.artifact hkind (by omega) <| .nil _
    case hfields => rfl
  | incidentAdded incident =>
    have hincident := nesting_incident incident
    rw [Read.eventKind, selectVariant_kind (.incidentAdded incident) rfl]
    apply Reads.bufferedRecord
    case hkeys => decide
    case h => exact .read (fun _ => rfl) Decodes.incident hkind (by omega) <| .nil _
    case hfields => rfl
  | log level component message =>
    rw [Read.eventKind, selectVariant_kind (.log level component message) rfl]
    apply Reads.bufferedRecord
    case hkeys => decide
    case h =>
      exact .read (fun _ => rfl) Decodes.str trivial (by simp) <|
        .read (fun _ => rfl) Decodes.str trivial (by simp) <|
        .read (fun _ => rfl) Decodes.str trivial (by simp) <| .nil _
    case hfields => rfl

/-- The members an event holds back are its kind's: none is a key of the event's own fields. -/
theorem kind_unknown {kind : EventKind} (hkind : kind.Storable) :
    ∀ m ∈ present (("type", some (.str kind.name)) :: Event.kindMembers kind),
      m.1 ∉ RecordFormat.keys Read.eventFields.fields ∧ m.2.plain := by
  cases kind with
  | runStarted name specs execution =>
    exact tagged_unknown ["project_name", "agents_config", "execution_config"] (by decide) rfl
      (by decide) (by simp [Event.kindMembers, plainMembers,
        (Decodes.list Decodes.agentSpec specs fun _ _ => trivial).1,
        (Decodes.execution execution hkind).1])
  | runCompleted status =>
    exact tagged_unknown ["status"] (by decide) rfl (by decide) (by simp [Event.kindMembers, plainMembers])
  | agentStarted => exact tagged_unknown [] (by decide) rfl (by decide) rfl
  | agentCompleted status error =>
    exact tagged_unknown ["status", "error"] (by decide) rfl (by decide)
      (by cases error <;> simp [Event.kindMembers, plainMembers])
  | stepAdded step =>
    exact tagged_unknown ["step"] (by decide) rfl (by decide)
      (by simp [Event.kindMembers, plainMembers, (Decodes.step step hkind).1])
  | artifactAdded artifact =>
    exact tagged_unknown ["artifact"] (by decide) rfl (by decide)
      (by simp [Event.kindMembers, plainMembers, (Decodes.artifact artifact hkind).1])
  | incidentAdded incident =>
    exact tagged_unknown ["error"] (by decide) rfl (by decide)
      (by simp [Event.kindMembers, plainMembers, (Decodes.incident incident hkind).1])
  | log level component message =>
    exact tagged_unknown ["level", "component", "message"] (by decide) rfl (by decide)
      (by simp [Event.kindMembers, plainMembers])

theorem Decodes.event : Decodes Read.event Event.toJson Event.Storable :=
  Decodes.flatRecord (by decide)
    (fun e => [some (.ofNat e.seq), some e.time.toJson, some (.str e.runId), e.projectId.map .str,
      e.agentId.map .str, some (.str e.correlationId)])
    (fun e => present (("type", some (.str e.kind.name)) :: Event.kindMembers e.kind))
    (fun e => by rw [Event.toJson, members_eq_present, RecordFormat.fieldMembers, ← present_append]; rfl)
    (fun _ he => kind_unknown he.kind) fun e he src p k d hd => by
      have hd0 : 0 < d := hd _ (List.mem_cons_self ..)
      refine ⟨{ e with kind := default }, ?_, fun t => (Reads.eventKind he.kind src d t).bind (Reads.pure _)⟩
      exact .read (fun _ => rfl) Decodes.u64 he.seq hd0 <|
        .read (fun _ => rfl) Decodes.instant he.time hd0 <|
        .read (fun _ => rfl) Decodes.str trivial hd0 <|
        .option (fun _ => rfl) (by simp [Read.field]) Decodes.str (fun _ _ => by simp)
          (fun _ _ => trivial) (fun _ _ => hd0) rfl <|
        .option (fun _ => rfl) (by simp [Read.field]) Decodes.str (fun _ _ => by simp)
          (fun _ _ => trivial) (fun _ _ => hd0) rfl <|
        .read (fun _ => rfl) Decodes.str trivial hd0 <| .nil _

theorem nesting_event (e : Event) : nesting e.toJson ≤ 3 := by
  apply nesting_members_le
  cases e.kind with
  | runStarted name specs execution =>
    have := nesting_arr_le (n := 1) fun a (_ : a ∈ specs) => nesting_agentSpec a
    have := nesting_execution execution
    simp [Event.kindMembers]
    omega
  | stepAdded step =>
    have := nesting_step step
    simp [Event.kindMembers]
    omega
  | artifactAdded artifact =>
    have := nesting_artifact artifact
    simp [Event.kindMembers]
    omega
  | incidentAdded incident =>
    have := nesting_incident incident
    simp [Event.kindMembers]
    omega
  | runCompleted | agentStarted | agentCompleted | log => simp [Event.kindMembers]

end Events

section Files

theorem Event.line_reads_back {e : Event} (he : e.Storable) :
    (10 : UInt8) ∉ e.line.toUTF8.toList ∧ Json.readText Read.event e.line = .ok e := by
  obtain ⟨hplain, hread⟩ := Decodes.event e he
  have hbytes : e.line.toUTF8.toList = spell false 0 e.toJson := compact_bytes 0 _
  have hdepth := nesting_event e
  have h := hread .text false 0 128 [] [] (fun _ h => absurd h List.not_mem_nil)
    (fun _ h => absurd h (by simp)) (by omega)
  refine ⟨hbytes ▸ fun h => absurd (compact_printable _ hplain 0 10 h) (by decide), ?_⟩
  rw [Json.readText, Reader.bytesOf, hbytes, Reads.runOn (by simpa using h) (by simp)]

/-- A value written as a file, pretty and with a final line break, reads back. -/
theorem Decodes.readBytes_file {r : Reader α} {enc : α → Json} {ok : α → Prop} (h : Decodes r enc ok)
    {a : α} (ha : ok a) (hdepth : nesting (enc a) < 128) :
    Json.readBytes r (Json.pretty (enc a) ++ "\n").toUTF8.toList = .ok a := by
  obtain ⟨-, hread⟩ := h a ha
  have hbytes : (Json.pretty (enc a) ++ "\n").toUTF8.toList = spell true 0 (enc a) ++ [10] := by
    rw [toUTF8_toList_append, Json.pretty, prettyAt_bytes, toUTF8_toList_newline]
  have hr := hread .text true 0 128 [] [10] (fun _ h => absurd h List.not_mem_nil)
    (by simp [Ends, Blank]) hdepth
  rw [Json.readBytes, hbytes, Reads.runOn (by simpa using hr) (by simp [Blank])]

theorem Trace.fileText_reads_back {t : Trace} (ht : t.Storable) :
    Json.readBytes Read.trace t.fileText.toUTF8.toList = .ok t :=
  Decodes.trace.readBytes_file ht (by have := nesting_trace t; omega)

/-- Both stored forms read back: every storable event's log line is a single line read back as
the event, and every storable trace's file is read back as the trace. -/
theorem persistence_round_trip :
    (∀ e : Event, e.Storable →
      (10 : UInt8) ∉ e.line.toUTF8.toList ∧ Json.readText Read.event e.line = .ok e) ∧
    (∀ t : Trace, t.Storable → Json.readBytes Read.trace t.fileText.toUTF8.toList = .ok t) :=
  ⟨fun _ he => Event.line_reads_back he, fun _ ht => Trace.fileText_reads_back ht⟩

/-- An event recording a model call: its step is flattened into it, on the same tag. -/
def llmStepEvent : Event :=
  { seq := 7, time := ⟨20000, 3600, 500⟩, runId := "run-1", projectId := none,
    agentId := some "writer", correlationId := "c-7",
    kind := .stepAdded (Step.llm "writer" 1 "acme" "m-2" 120 48) }

def oneAgentTrace : Trace :=
  Trace.new "run-1" "proj" "Demo" [⟨"writer", "llm", "drafts"⟩] Execution.default ⟨20000, 3600, 0⟩

theorem persistence_round_trip_llm_step :
    ((10 : UInt8) ∉ llmStepEvent.line.toUTF8.toList ∧
      Json.readText Read.event llmStepEvent.line = .ok llmStepEvent) ∧
    Json.readBytes Read.trace oneAgentTrace.fileText.toUTF8.toList = .ok oneAgentTrace :=
  ⟨persistence_round_trip.1 _ ⟨by decide, rfl,
    ⟨by simp [Step.llm, Step.bare], by simp [Step.llm, Step.bare], by simp [Step.llm, Step.bare],
      ⟨by decide, by decide⟩⟩⟩,
   persistence_round_trip.2 _
    ⟨rfl, by simp [oneAgentTrace, Trace.new, Trace.refresh], Nat.zero_le _,
      by
        simp [oneAgentTrace, Trace.new, Trace.refresh, AgentRun.declared]
        exact ⟨by simp, by simp, by simp, Nat.zero_le _⟩,
      by simp [oneAgentTrace, Trace.new, Trace.refresh],
      by simp [oneAgentTrace, Trace.new, Trace.refresh],
      ⟨by decide, by decide, by decide, by decide, by decide, by decide, by decide⟩, by decide⟩⟩

end Files

end Json

end RunJournal
