import RunJournal.Proofs.JsonCut
import RunJournal.Proofs.TraceCodec
import RunJournal.Proofs.TornAppends
/-!
# Storable events are framed

The log readers need each line to be framed (`Event.Framed`): it reads back as its event, no part of
it cut short reads as an event, and it holds no line break. A storable event's line is all three.
It reads back (`Json.Event.line_reads_back`); it is compact text, printable byte by byte; and it is
the text of an object, read by a record reader whose fields each read a whole value and whose kind
is read from members held back, so a cut line never reads (`Json.flatRecord_cut_fails`).

Torn appends of storable events therefore read back as `EventLog.framed_appends_read_back` says.
-/

namespace RunJournal

open Json

namespace Read

theorem walks_eventFields :
    ∀ f ∈ eventFields.fields, ∀ a k, Walks (f.read a) (.out k) (.out k) := by
  intro f hf a k
  simp only [eventFields, List.mem_cons, List.not_mem_nil, or_false] at hf
  rcases hf with rfl | rfl | rfl | rfl | rfl | rfl
  · exact walks_u64.bind fun _ => WalksOn.pure _
  · exact (walks_stringWith _ _).bind fun _ => WalksOn.pure _
  · exact walks_str.bind fun _ => WalksOn.pure _
  · exact (walks_option walks_str).bind fun _ => WalksOn.pure _
  · exact (walks_option walks_str).bind fun _ => WalksOn.pure _
  · exact walks_str.bind fun _ => WalksOn.pure _

/-- The kind is read from the members held back, not from the line. -/
theorem walks_eventKind (held : List (String × Json)) (s : Scan) : Walks (eventKind held) s s := by
  unfold eventKind
  split
  · exact (fails_failBare _).walksOn
  · dsimp only
    split
    all_goals first
      | exact walks_buffered
      | exact WalksOn.pure _

end Read

namespace Event

theorem lineBytes_eq_spell (e : Event) : e.lineBytes = spell false 0 e.toJson :=
  compact_bytes 0 _

theorem toJson_obj (e : Event) : ∃ m ms, e.toJson = .obj (m :: ms) :=
  ⟨("seq", .ofNat e.seq), _, rfl⟩

/-- A storable event's line is framed: it reads back as the event, no strict prefix of it reads as
an event, and it holds no line break. -/
theorem framed {e : Event} (he : e.Storable) : e.Framed where
  reads := (readText_eq_readBytes Read.event e.line).symm.trans (Json.Event.line_reads_back he).2
  cutFails := by
    intro j hj x h
    obtain ⟨m, ms, hobj⟩ := e.toJson_obj
    have hplain : (Json.obj (m :: ms)).plain := hobj ▸ (Decodes.event e he).1
    rw [e.lineBytes_eq_spell, hobj] at hj h
    unfold Json.readBytes at h
    split at h
    · next a hrun =>
      cases h
      exact flatRecord_cut_fails Read.walks_eventFields
        (fun _ held s => (Read.walks_eventKind held s).bind fun _ => WalksOn.pure _) hplain hj _ hrun
    · cases h
  plain := by
    have hprint := compact_printable e.toJson (Decodes.event e he).1 0
    rw [← e.lineBytes_eq_spell] at hprint
    exact ⟨fun h => absurd (hprint 10 h) (by decide), fun h => absurd (hprint 13 h) (by decide)⟩

end Event

namespace EventLog

/-- Appends with rising sequence numbers of storable events to a log not made yet, any of them torn
after any byte: what each append left is recorded, an append that answers with its event left its
whole line, reading from `k` gives, in order, the events left whole with sequence number `k` or more
unless a cut line ends inside a character, and the tail scan gives the last event left whole. -/
theorem torn_appends_read_back {log : EventLog} {w : World} {m : Nat}
    (hdir : w.disk.metadata w.cwd log.dir = .ok (.dir m))
    (hfresh : w.disk.metadata w.cwd log.path = .error .notFound) (calls : List (Event × Nat))
    (hstorable : ∀ c ∈ calls, ({ c.1 with seq := c.2 } : Event).Storable)
    (hrising : (calls.map (·.2)).Pairwise (· < ·)) :
    let run := (calls.mapM fun c => (log.appendAt c.1 c.2).run).run w
    ∃ ws : Written, ws.Prefixes ∧
      ws.map (·.1) = calls.map (fun c => ({ c.1 with seq := c.2 } : Event)) ∧
      List.Forall₂ (fun r q => ∀ v, r = .ok v → v = q.1 ∧ q.2 = q.1.lineBytes) run.1 ws ∧
      (∀ k, (log.readFrom k).run.run run.2
        = (if ws.Decodable then .ok (ws.complete k) else .error .invalidUtf8, run.2)) ∧
      ∃ r, log.lastSeq.run.run run.2 = (r, run.2) ∧
        (r = .ok (((ws.complete 0).getLast?.map (·.seq)).getD 0)
          ∨ (r = .error .invalidUtf8 ∧ ¬ ws.Decodable)) :=
  framed_appends_read_back hdir hfresh calls (fun c hc => Event.framed (hstorable c hc)) hrising

/-- A log message of the run `r`, numbered when appended. -/
def note (message : String) : Event :=
  { seq := 0, time := ⟨20000, 3600, 500⟩, runId := "r", projectId := none, agentId := none,
    correlationId := "c", kind := .log "info" "c" message }

/-- The log at the root of an empty disk, two storable events appended, the first of them torn
after its tenth byte. -/
theorem torn_appends_read_back_after_tear :
    let w : World := { (default : World) with faults := [none, some (.tear 10)] }
    let log : EventLog := ⟨"/"⟩
    let calls : List (Event × Nat) := [(note "a", 1), (note "b", 2)]
    w.disk.metadata w.cwd log.dir = .ok (.dir Disk.dirMode) ∧
    w.disk.metadata w.cwd log.path = .error .notFound ∧
    (∀ c ∈ calls, ({ c.1 with seq := c.2 } : Event).Storable) ∧
    (calls.map (·.2)).Pairwise (· < ·) ∧
    let run := (calls.mapM fun c => (log.appendAt c.1 c.2).run).run w
    ∃ ws : Written, ws.Prefixes ∧
      ws.map (·.1) = calls.map (fun c => ({ c.1 with seq := c.2 } : Event)) ∧
      List.Forall₂ (fun r q => ∀ v, r = .ok v → v = q.1 ∧ q.2 = q.1.lineBytes) run.1 ws ∧
      (∀ k, (log.readFrom k).run.run run.2
        = (if ws.Decodable then .ok (ws.complete k) else .error .invalidUtf8, run.2)) ∧
      ∃ r, log.lastSeq.run.run run.2 = (r, run.2) ∧
        (r = .ok (((ws.complete 0).getLast?.map (·.seq)).getD 0)
          ∨ (r = .error .invalidUtf8 ∧ ¬ ws.Decodable)) := by
  have hstorable : ∀ c ∈ [(note "a", 1), (note "b", 2)],
      ({ c.1 with seq := c.2 } : Event).Storable := by
    intro c hc
    simp only [List.mem_cons, List.not_mem_nil, or_false] at hc
    rcases hc with rfl | rfl <;> exact ⟨by decide, rfl, trivial⟩
  exact ⟨rfl, rfl, hstorable, by decide, torn_appends_read_back rfl rfl _ hstorable (by decide)⟩

end EventLog

end RunJournal
