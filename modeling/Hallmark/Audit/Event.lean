import Hallmark.Module.Error
import Hallmark.Pipeline.Report
import Hallmark.Text.Quoted

/-!
# `Hallmark/Audit/Event.lean` — what modules and pipelines log

Every event that is logged has a severity, a message and some named fields. Part of them form the audit
trail: which module was prepared, which label a file was given, which run failed, what a pipeline
reported. The events are kept as what happened; their wording is worked out from that.
-/

set_option autoImplicit false

namespace Hallmark

open Time (Timestamp)
open Pipeline (Report)

namespace Audit

inductive Level where
  | info
  | warn
  | error
deriving DecidableEq, Repr

inductive FieldValue where
  | text (s : String)
  | number (n : Nat)
  | flag (b : Bool)
deriving DecidableEq, Repr

/-- A label that was posted for a file. -/
structure Finding where
  timestamp : Timestamp
  source : String
  file : FileId
  label : String
  mime : Option String := none
  /-- How many bytes the matcher was given. -/
  bytesExamined : Nat
deriving DecidableEq, Repr

namespace Finding

/-- The kind of event that a finding is. -/
def eventType : String := "file_type_identified"

def toJson (finding : Finding) : Json :=
  .object [("timestamp", Record.ofTime finding.timestamp), ("module", .text finding.source),
    ("file_id", finding.file.toJson), ("label", .text finding.label),
    ("mime", Json.optionalText finding.mime), ("bytes_examined", Json.nat finding.bytesExamined)]

def ofJson? (j : Json) : Option Finding := do
  let fields ← Record.fields?
    ["timestamp", "module", "file_id", "label", "mime", "bytes_examined"] j
  return {
    timestamp := ← fields.required? "timestamp" Record.time?
    source := ← fields.required? "module" Record.text?
    file := ← fields.required? "file_id" FileId.ofJson?
    label := ← fields.required? "label" Record.text?
    mime := ← fields.optional? "mime" Record.text?
    bytesExamined := ← fields.required? "bytes_examined" Record.size? }

end Finding

/-- The outcome of one module in a few words. -/
structure StatusSummary where
  source : String
  status : String
  milliseconds : Nat
deriving DecidableEq, Repr

namespace StatusSummary

def toJson (summary : StatusSummary) : Json :=
  .object [("module", .text summary.source), ("status", .text summary.status),
    ("duration_ms", Json.nat summary.milliseconds)]

def ofJson? (j : Json) : Option StatusSummary := do
  let fields ← Record.fields? ["module", "status", "duration_ms"] j
  return {
    source := ← fields.required? "module" Record.text?
    status := ← fields.required? "status" Record.text?
    milliseconds := ← fields.required? "duration_ms" Record.size? }

end StatusSummary

inductive Event where
  /-- The arguments of the file type module say nothing that it knows. -/
  | argumentsIgnored (source arguments : String)
  | databaseLoaded (path : String)
  | prepared (source version : String) (database : Option String)
  | prepareFailed (source : String) (error : ModuleError)
  | identified (finding : Finding)
  /-- A module failed on a file; for those who watch the log. -/
  | runFailed (source : String) (file : FileId) (error : ModuleError)
  /-- A module failed on a file; for the audit trail. -/
  | runFailure (source : String) (file : FileId) (error : ModuleError)
  | finalized (source : String)
  /-- The pipeline has asked a module to prepare. -/
  | moduleStarted (source version : String) (status : Status)
  /-- The pipeline saw a module fail, and stops or goes on. -/
  | moduleFailed (file : FileId) (source : String) (isStopping : Bool)
  /-- The pipeline saw a module fail to finalize. -/
  | finalizeFailed (source : String)
  /-- The pipeline is done with a file. -/
  | reported (report : Report)
deriving DecidableEq, Repr

namespace Event

def level : Event → Level
  | .argumentsIgnored .. | .runFailure .. | .moduleFailed .. | .finalizeFailed .. => .warn
  | .prepareFailed .. | .runFailed .. => .error
  | .databaseLoaded .. | .prepared .. | .identified .. | .finalized .. | .moduleStarted ..
  | .reported .. => .info

def isAudit : Event → Bool
  | .prepared .. | .identified .. | .runFailure .. | .reported .. => true
  | _ => false

def message : Event → String
  | .argumentsIgnored source _ => s!"{source}: ignoring unrecognized arguments"
  | .databaseLoaded _ => "Loaded signature database"
  | .prepared .. | .moduleStarted .. => "Module initialized"
  | .prepareFailed source error | .runFailed source _ error => source ++ ": " ++ error.message
  | .identified _ => "File type identified"
  | .runFailure .. => "Module run failed"
  | .finalized source => s!"{source} finalized"
  | .moduleFailed _ _ isStopping =>
    "Module failed, " ++ if isStopping then "stopping" else "continuing with others"
  | .finalizeFailed _ => "Module failed to finalize"
  | .reported _ => "Pipeline report generated"

/-- The fields of an event. What may be absent, and lists, are written quoted. The durations and the
identifier of a report are not among the fields. -/
def fields : Event → List (String × FieldValue)
  | .argumentsIgnored _ arguments => [("arguments", .text arguments)]
  | .databaseLoaded path => [("path", .text path)]
  | .prepared source version database =>
    [("event_type", .text "module_initialized"), ("module", .text source),
      ("version", .text version), ("database", .text (Text.Quoted.optional database))]
  | .prepareFailed .. => []
  | .identified finding =>
    [("event_type", .text Finding.eventType), ("module", .text finding.source),
      ("file_id", .text finding.file.toText), ("label", .text finding.label),
      ("mime", .text (Text.Quoted.optional finding.mime)),
      ("bytes_examined", .number finding.bytesExamined)]
  | .runFailed _ file _ => [("file_id", .text file.toText)]
  | .runFailure source file error =>
    [("event_type", .text "module_run_failed"), ("module", .text source),
      ("file_id", .text file.toText), ("error", .text error.message),
      ("permanent", .flag error.isPermanent)]
  | .finalized _ => []
  | .moduleStarted source version status =>
    [("module", .text source), ("version", .text version), ("status", .text status.name)]
  | .moduleFailed file source _ => [("file_id", .text file.toText), ("module", .text source)]
  | .finalizeFailed source => [("module", .text source)]
  | .reported report =>
    [("event_type", .text "pipeline_report"), ("file_id", .text report.file.toText),
      ("status", .text report.status.name), ("module_count", .number report.entries.length),
      ("failed", .text (Text.Quoted.list report.failedModules))]

end Event

end Audit

end Hallmark
