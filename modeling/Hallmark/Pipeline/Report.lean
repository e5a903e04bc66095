import Hallmark.FileId
import Hallmark.Record.Time
import Hallmark.Status

/-!
# `Hallmark/Pipeline/Report.lean` — what modules reported for a file

A report has one entry for each module that ran on a file, in the order in which they ran. Its
summaries are read off the entries. Main statement: `status_eq_fail_iff`, the worst status is a failure
exactly if some module failed.
-/

set_option autoImplicit false

namespace Hallmark

open Time (Timestamp)

namespace Pipeline

/-- What one module reported for one file. -/
structure RunEntry where
  source : String
  status : Status
  /-- How long it ran, in nanoseconds. -/
  elapsed : Nat
deriving DecidableEq, Repr

/-- The outcome of running modules on one file. -/
structure Report where
  id : String
  file : FileId
  entries : List RunEntry
  startedAt : Timestamp
  completedAt : Timestamp
deriving DecidableEq, Repr

namespace RunEntry

def hasFailed (entry : RunEntry) : Bool := entry.status = .fail

/-- Durations are written in microseconds, as a word of 64 bits. -/
def toJson (entry : RunEntry) : Json :=
  .object [("module", .text entry.source), ("status", entry.status.toJson),
    ("duration", Json.nat (entry.elapsed / 1000 % Number.wordLimit))]

def ofJson? (j : Json) : Option RunEntry := do
  let fields ← Record.fields? ["module", "status", "duration"] j
  return {
    source := ← fields.required? "module" Record.text?
    status := ← fields.required? "status" Status.ofJson?
    elapsed := (← fields.required? "duration" Record.size?) * 1000 }

end RunEntry

namespace Report

/-- The worst status that a module reported. -/
def status (report : Report) : Status := Status.worst (report.entries.map RunEntry.status)

def isOk (report : Report) : Bool := !report.entries.any RunEntry.hasFailed

/-- A module asked that no other run on the file. -/
def isStopped (report : Report) : Bool := report.entries.any fun entry => entry.status = .stop

def failedModules (report : Report) : List String :=
  (report.entries.filter RunEntry.hasFailed).map RunEntry.source

def statusOf? (report : Report) (name : String) : Option Status :=
  (report.entries.find? fun entry => entry.source = name).map RunEntry.status

/-- The time that all modules took, in nanoseconds. -/
def totalElapsed (report : Report) : Nat :=
  report.entries.foldr (fun entry total => entry.elapsed + total) 0

theorem status_eq_fail_iff (report : Report) :
    report.status = .fail ↔ ∃ entry ∈ report.entries, entry.status = .fail := by
  have foldl (statuses : List Status) (start : Status) :
      statuses.foldl max start = .fail ↔ start = .fail ∨ .fail ∈ statuses := by
    induction statuses generalizing start with
    | nil => simp
    | cons s rest ih =>
      rw [List.foldl_cons, ih, Status.max_eq_fail_iff, or_assoc, List.mem_cons]
      simp only [eq_comm]
  simp [status, Status.worst, foldl, List.mem_map]

def toJson (report : Report) : Json :=
  .object [("id", .text report.id), ("file_id", report.file.toJson),
    ("entries", .array (report.entries.map RunEntry.toJson)),
    ("started_at", Record.ofTime report.startedAt),
    ("completed_at", Record.ofTime report.completedAt)]

def ofJson? (j : Json) : Option Report := do
  let fields ← Record.fields? ["id", "file_id", "entries", "started_at", "completed_at"] j
  return {
    id := ← fields.required? "id" Record.text?
    file := ← fields.required? "file_id" FileId.ofJson?
    entries := ← fields.required? "entries" (Record.list? RunEntry.ofJson?)
    startedAt := ← fields.required? "started_at" Record.time?
    completedAt := ← fields.required? "completed_at" Record.time? }

end Report

end Pipeline

end Hallmark
