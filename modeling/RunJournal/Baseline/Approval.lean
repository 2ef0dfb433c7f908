import RunJournal.Trace.Codec
/-!
# Baseline approvals

An approval marks a finished run as the baseline of its project. It is written beside the run's
trace as `approval.json` and is valid when its `baseline` and `lock` flags are both true and it
names a project and an approver (each non-blank). A digest of the trace file at approval time may be
kept in it, so that a later change of the trace can be told.
-/

namespace RunJournal

open Json

def approvalSchema : String := "1.0"

/-- An approval of a run as baseline. -/
structure Approval where
  baseline : Bool
  project : String
  approvedBy : String
  approvedAt : Instant
  reason : String
  engineVersion : String
  lock : Bool
  schemaVersion : String
  traceDigest : Option String
  deriving DecidableEq, Repr

namespace Approval

def new (project approvedBy reason engineVersion : String) (at_ : Instant) : Approval :=
  { baseline := true, project, approvedBy, approvedAt := at_, reason, engineVersion, lock := true,
    schemaVersion := approvalSchema, traceDigest := none }

def trimBlanks (s : String) : String :=
  String.ofList ((Rfc3339.trimStart (Rfc3339.trimStart s.toList).reverse).reverse)

/-- Why an approval is not valid, checking the flags first and then the names. -/
def verify (a : Approval) : Except String Unit :=
  if !a.baseline then .error "baseline field is not true"
  else if !a.lock then .error "lock field is not true"
  else if (trimBlanks a.project).isEmpty then .error "project field is empty"
  else if (trimBlanks a.approvedBy).isEmpty then .error "approved_by field is empty"
  else .ok ()

def toJson (a : Approval) : Json :=
  Json.members [("baseline", some (.bool a.baseline)), ("project", some (.str a.project)),
    ("approved_by", some (.str a.approvedBy)), ("approved_at", some a.approvedAt.toJson),
    ("reason", some (.str a.reason)), ("engine_version", some (.str a.engineVersion)),
    ("lock", some (.bool a.lock)), ("schema_version", some (.str a.schemaVersion)),
    ("trace_sha256", a.traceDigest.map .str)]

end Approval

namespace Read

def approval : Reader Approval :=
  Reader.record
    { expecting := "struct Approval",
      init := Approval.new "" "" "" "" epoch,
      fields := [
        field "baseline" .required Reader.bool fun a v => { a with baseline := v },
        field "project" .required Reader.str fun a v => { a with project := v },
        field "approved_by" .required Reader.str fun a v => { a with approvedBy := v },
        field "approved_at" .required instant fun a v => { a with approvedAt := v },
        field "reason" .required Reader.str fun a v => { a with reason := v },
        field "engine_version" .required Reader.str fun a v => { a with engineVersion := v },
        field "lock" .required Reader.bool fun a v => { a with lock := v },
        field "schema_version" .required Reader.str fun a v => { a with schemaVersion := v },
        field "trace_sha256" .defaulted (Reader.option Reader.str) fun a v => { a with traceDigest := v }] }

end Read

end RunJournal
