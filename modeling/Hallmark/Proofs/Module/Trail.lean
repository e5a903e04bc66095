import Hallmark.Proofs.Host.Reading
import Hallmark.Proofs.Module.Calls

/-!
# `Hallmark/Proofs/Module/Trail.lean` — the audit trail and the blackboard agree

A run of the file type module posts its label before it notes it, and fails if the post is refused: so
there is a finding in the trail for each label that was posted and for no other, and a run that fails
leaves one error and one failure instead (`accounts_run`). A finding tells how many bytes the file said that
it read; these are the bytes that the matcher was given if the file keeps its promise (`HostFile.CountsRead`).
Preparing and finalizing find nothing. A trail is what any requests leave, one after the other, each in a
world of its own. Main statement: `trail_agrees`.
-/

set_option autoImplicit false

namespace Hallmark

open Audit (Event Finding)
open Blackboard (Attribute)
open Host (BringsWithin Buffer DatabaseLoader DiskFile MemoryFile Session Surroundings)

/-! ## Reading a trail -/

namespace Audit.Event

/-- The finding that an event notes. -/
def finding? : Event → Option Finding
  | .identified finding => some finding
  | _ => none

/-- An event of a type, as its fields tell it. -/
def HasType (type : String) (event : Event) : Prop :=
  event.fields.lookup "event_type" = some (.text type)

instance (type : String) : DecidablePred (HasType type) :=
  fun event => inferInstanceAs (Decidable (event.fields.lookup "event_type" = some (.text type)))

theorem isSome_finding?_iff (event : Event) :
    event.finding?.isSome ↔ event.HasType "file_type_identified" := by
  cases event <;> simp [finding?, HasType, fields, Finding.eventType, List.lookup_cons]

end Audit.Event

namespace FileTypeModule

variable {σ : Type}

/-! ## What a run leaves -/

/-- How a run ends, the calls that it makes and the events that it logs. -/
inductive Accounts (file : HostFile σ) : Ending Status → List Call → List Event → Prop
  | failed {calls : List Call} (error : ModuleError) (hp : ∀ fact, .post fact (.ok ()) ∉ calls) :
      Accounts file (.returned .fail) calls
        [.runFailed info.name file.id error, .runFailure info.name file.id error]
  | panicked : Accounts file .panicked [] []
  | skipped (hs : file.size = 0) : Accounts file (.returned .ok) [] []
  | posted {room count : Nat} {filled : Buffer room} {identification : Identification}
      {fact : Attribute} {finding : Finding} (hs : file.size ≠ 0) (ht : fact.type = .fileTypeSig)
      (hv : fact.value = .text finding.label) (hf : finding.file = file.id)
      (hb : finding.bytesExamined = count) (hc : file.CountsRead → count ≤ room) :
      Accounts file (.returned .ok)
        [.read 0 room (.ok (count, filled.bytes)), .identify (filled.front count) (.ok identification),
          .post fact (.ok ())]
        [.identified finding]

section Accounts

variable {file : HostFile σ} {ending : Ending Status} {calls : List Call} {events : List Event}

/-- The facts among some calls that were posted with success, of the type that the module posts: the file
and the text. -/
def postedIn (file : FileId) (calls : List Call) : List (FileId × Option String) :=
  calls.filterMap fun
    | .post fact (.ok ()) => if fact.type = .fileTypeSig then some (file, fact.value.text?) else none
    | _ => none

/-- The findings of a run are what it posted. -/
theorem Accounts.findings (h : Accounts file ending calls events) :
    (events.filterMap Event.finding?).map (fun finding => (finding.file, some finding.label)) =
      postedIn file.id calls := by
  cases h with
  | failed error hp =>
    have hnone : postedIn file.id calls = [] := by
      rw [postedIn, List.filterMap_eq_nil_iff]
      rintro (_ | _ | ⟨fact, answer⟩) hcall
      · rfl
      · rfl
      · cases answer with
        | ok => exact absurd hcall (hp fact)
        | error => rfl
    rw [hnone]
    rfl
  | panicked | skipped => rfl
  | posted hs ht hv hf => simp [postedIn, Event.finding?, ht, hv, hf, Blackboard.AttributeValue.text?]

/-- What the trail of one run tells: a failure has one error, and one event for the audit trail about the
file; a success has neither, and finds something unless the file is empty. A run that panics tells nothing. -/
structure Tells (file : HostFile σ) (ending : Ending Status) (calls : List Call) (events : List Event) :
    Prop where
  settled : ending = .panicked ∨ ending = .returned .ok ∨ ending = .returned .fail
  panicked : ending = .panicked → calls = [] ∧ events = []
  failed : ending = .returned .fail →
    (∃ error, events.filter (fun event => event.level = .error) = [.runFailed info.name file.id error] ∧
      events.filter (Event.HasType "module_run_failed" ·) = [.runFailure info.name file.id error]) ∧
    ∀ event ∈ events, ¬ event.HasType "file_type_identified"
  succeeded : ending = .returned .ok →
    (∀ event ∈ events, event.level ≠ .error ∧ ¬ event.HasType "module_run_failed") ∧
    events.countP (Event.HasType "file_type_identified" ·) = if file.size = 0 then 0 else 1
  /-- A finding is about the bytes that were read, and the matcher was given these of the buffer. -/
  examined : ∀ finding, .identified finding ∈ events →
    (∃ bytes answer, .identify bytes answer ∈ calls) ∧
      ∀ bytes answer, .identify bytes answer ∈ calls →
        ∃ room filled, .read 0 room (.ok (finding.bytesExamined, filled)) ∈ calls ∧
          bytes = filled.take finding.bytesExamined
  /-- No more bytes are counted than the matcher was given, if the file counts what it read. -/
  counted : file.CountsRead → ∀ finding, .identified finding ∈ events →
    ∀ bytes answer, .identify bytes answer ∈ calls → finding.bytesExamined = bytes.length

theorem Accounts.tells (h : Accounts file ending calls events) : Tells file ending calls events := by
  cases h with
  | failed error hp =>
    constructor
    · exact .inr (.inr rfl)
    · intro h
      cases h
    · intro _
      refine ⟨⟨error, rfl, rfl⟩, ?_⟩
      intro event hevent
      have hquiet : ∀ event ∈ [Event.runFailed info.name file.id error,
          Event.runFailure info.name file.id error], event.finding? = none := by
        simp [Event.finding?]
      rw [← Event.isSome_finding?_iff, hquiet event hevent]
      simp
    · intro h
      cases h
    · intro finding hfinding
      simp at hfinding
    · intro _ finding hfinding
      simp at hfinding
  | panicked =>
    constructor
    · exact .inl rfl
    · exact fun _ => ⟨rfl, rfl⟩
    · intro h
      cases h
    · intro h
      cases h
    · intro finding hfinding
      cases hfinding
    · intro _ finding hfinding
      cases hfinding
  | skipped hs =>
    constructor
    · exact .inr (.inl rfl)
    · intro h
      cases h
    · intro h
      cases h
    · intro _
      exact ⟨by simp, by simp [hs]⟩
    · intro finding hfinding
      cases hfinding
    · intro _ finding hfinding
      cases hfinding
  | @posted room count filled identification fact finding hs ht hv hf hb hc =>
    have hgiven : ∀ bytes answer,
        Call.identify bytes answer ∈ [Call.read 0 room (.ok (count, filled.bytes)),
          .identify (filled.front count) (.ok identification), .post fact (.ok ())] →
          bytes = filled.front count := by
      intro bytes answer hmem
      simp only [List.mem_cons, reduceCtorEq, false_or, Call.identify.injEq, List.not_mem_nil,
        or_false] at hmem
      exact hmem.1
    constructor
    · exact .inr (.inl rfl)
    · intro h
      cases h
    · intro h
      cases h
    · intro _
      rw [if_neg hs]
      refine ⟨?_, rfl⟩
      intro event hevent
      obtain rfl := List.mem_singleton.1 hevent
      exact ⟨nofun, by simp [Event.HasType, Event.fields, Finding.eventType]⟩
    · intro other hother
      obtain rfl : other = finding := by simpa using hother
      refine ⟨⟨filled.front count, .ok identification, by simp⟩, ?_⟩
      intro bytes answer hmem
      refine ⟨room, filled.bytes, by simp [hb], ?_⟩
      rw [hgiven bytes answer hmem, hb, Buffer.front]
    · intro hcounts other hother bytes answer hmem
      obtain rfl : other = finding := by simpa using hother
      rw [hgiven bytes answer hmem, Buffer.length_front, hb, Nat.min_eq_left (hc hcounts)]

end Accounts

/-! ## Runs -/

section Runs

variable [Surroundings σ] {m : FileTypeModule σ} {file : HostFile σ} {world : σ}

theorem accounts_of_error {error : ModuleError} {after : σ} {calls : List Call}
    (h : m.identifyFile file world = ⟨.returned (.error error), after, []⟩)
    (hp : ∀ fact, .post fact (.ok ()) ∉ calls) :
    Accounts file (.returned .fail) calls (m.run file world).events := by
  have hevents : (m.run file world).events =
      [.runFailed info.name file.id error, .runFailure info.name file.id error] := by
    simp [run, h]
  rw [hevents]
  exact .failed error hp

/-- Where there is a buffer, a file that is not empty is identified by what the buffer takes of it. -/
theorem identifyFile_eq {matcher : Matcher σ} (hm : m.matcher = some matcher) (hs : file.size ≠ 0)
    (hb : m.config.bufferSize ≤ Buffer.limit) (world : σ) :
    m.identifyFile file world =
      let outcome := identifyInto m.config matcher (Buffer.zeros m.config.bufferSize) file world
      { outcome with value := .returned outcome.value } := by
  have hallocate : Buffer.allocate? m.config.bufferSize = some (.zeros _) := if_pos hb
  simp [identifyFile, hm, hs, hallocate]

/-- **A run notes what it posted,** or why it failed. -/
theorem accounts_run (m : FileTypeModule σ) (file : HostFile σ) (world : σ) :
    Accounts file (m.run file world).value (m.callsOf file world) (m.run file world).events := by
  obtain ⟨ending, after, calls, h, hvalue, -, -, hcalls⟩ := m.exists_runs file world
  rw [hvalue, callsOf, hcalls]
  cases h with
  | unprepared hm =>
    have herror : m.identifyFile file world = ⟨.returned (.error .notInitialized), world, []⟩ := by
      simp [identifyFile, hm]
    exact accounts_of_error herror (by simp)
  | skipped hm hs =>
    have hevents : (m.run file world).events = [] := by simp [run, identifyFile, hm, hs]
    rw [hevents]
    exact .skipped hs
  | panicked hm hs hb =>
    have hallocate : Buffer.allocate? m.config.bufferSize = none := if_neg (Nat.not_le_of_lt hb)
    have hevents : (m.run file world).events = [] := by simp [run, identifyFile, hm, hs, hallocate]
    rw [hevents]
    exact .panicked
  | @unread matcher error after hm hs hb hr =>
    have herror : m.identifyFile file world = ⟨.returned (.error (.file error)), after, []⟩ := by
      simp [identifyFile_eq hm hs hb, identifyInto, examine, hr]
    exact accounts_of_error herror (by simp)
  | @nothingRead matcher filled after hm hs hb hr =>
    have herror : m.identifyFile file world = ⟨.returned (.error (.emptyRead file.id)), after, []⟩ := by
      simp [identifyFile_eq hm hs hb, identifyInto, examine, hr]
    exact accounts_of_error herror (by simp)
  | @unidentified matcher count filled error middle after hm hs hb hr hc hi =>
    have herror : m.identifyFile file world = ⟨.returned (.error (.noLabel error)), after, []⟩ := by
      simp [identifyFile_eq hm hs hb, identifyInto, examine, hr, hc, hi]
    exact accounts_of_error herror (by simp)
  | @refused matcher count filled identification error middle last after hm hs hb hr hc hi hp =>
    have herror : m.identifyFile file world = ⟨.returned (.error (.blackboard error)), after, []⟩ := by
      simp [identifyFile_eq hm hs hb, identifyInto, examine, publish, hr, hc, hi, ← factOf_eq, hp]
    exact accounts_of_error herror (by simp)
  | @posted matcher count filled identification middle last after hm hs hb hr hc hi hp =>
    have hevents : (m.run file world).events =
        [.identified {
          timestamp := Surroundings.now after
          source := info.name
          file := file.id
          label := labelOf m.config identification
          mime := identification.mime
          bytesExamined := count }] := by
      simp [run, identifyFile_eq hm hs hb, identifyInto, examine, publish, hr, hc, hi, ← factOf_eq, hp]
    rw [hevents]
    exact .posted hs rfl rfl rfl rfl fun hcounts => hcounts 0 _ world count filled middle hr

end Runs

/-! ## Requests -/

/-- A request to a module, in the world that it happens in. -/
inductive Request (σ : Type) where
  | prepare (arguments : String) (world : σ)
  | run (file : HostFile σ) (world : σ)
  | finalize (world : σ)

section Quiet

variable {m : FileTypeModule σ} {world : σ} {event : Event}

theorem finding?_of_mem_finalize (h : event ∈ (m.finalize world).events) : event.finding? = none := by
  cases hm : m.isInitialized with
  | false => simp [finalize, hm] at h
  | true =>
    obtain rfl : event = .finalized info.name := by simpa [finalize, hm] using h
    rfl

variable [DatabaseLoader σ] {arguments : String}

theorem eq_databaseLoaded_of_mem {path : String} (h : event ∈ (loadDatabase path world).events) :
    event = .databaseLoaded path := by
  cases hl : DatabaseLoader.load path world with
  | error e => simp [loadDatabase, hl] at h
  | ok matcher => simpa [loadDatabase, hl] using h

theorem eq_databaseLoaded_of_mem_chooseMatcher (h : event ∈ (m.chooseMatcher arguments world).events) :
    ∃ path, event = .databaseLoaded path := by
  cases hv : m.config.validate with
  | error e => simp [chooseMatcher, hv] at h
  | ok =>
    cases ha : Module.databaseArgument? arguments with
    | some path =>
      simp only [chooseMatcher, hv, ha] at h
      exact ⟨path, eq_databaseLoaded_of_mem h⟩
    | none =>
      cases hp : m.preset with
      | some preset => simp [chooseMatcher, hv, ha, hp] at h
      | none =>
        cases hd : m.config.databasePath? with
        | some path =>
          simp only [chooseMatcher, hv, ha, hp, hd] at h
          exact ⟨path, eq_databaseLoaded_of_mem h⟩
        | none => simp [chooseMatcher, hv, ha, hp, hd] at h

/-- What preparing logs: that arguments are of no use, which database was read, and what came of it. -/
theorem of_mem_prepare (h : event ∈ (m.prepare arguments world).events) :
    Module.isUnrecognized arguments = true ∧ event = .argumentsIgnored info.name arguments ∨
      (∃ path, event = .databaseLoaded path) ∨ (∃ e, event = .prepareFailed info.name e) ∨
        ∃ version, event = .prepared info.name info.version version := by
  rw [prepare, Action.events_bind, List.mem_append] at h
  rcases h with h | h
  · rw [Action.emitIf_apply] at h
    split at h
    · rename_i hunrecognized
      exact .inl ⟨hunrecognized, List.mem_singleton.1 h⟩
    · cases h
  · rw [Action.events_bind, List.mem_append] at h
    rcases h with h | h
    · exact .inr (.inl (eq_databaseLoaded_of_mem_chooseMatcher h))
    · cases hc : (m.chooseMatcher arguments world).value with
      | error e => exact .inr (.inr (.inl ⟨e, by simpa [hc] using h⟩))
      | ok matcher => exact .inr (.inr (.inr ⟨matcher.databaseVersion, by simpa [hc] using h⟩))

theorem finding?_of_mem_prepare (h : event ∈ (m.prepare arguments world).events) :
    event.finding? = none := by
  rcases of_mem_prepare h with ⟨-, rfl⟩ | ⟨path, rfl⟩ | ⟨e, rfl⟩ | ⟨version, rfl⟩ <;> rfl

end Quiet

section Requests

variable [DatabaseLoader σ] [Surroundings σ]

/-- The module after a request. Running does not change it. -/
def after (m : FileTypeModule σ) : Request σ → FileTypeModule σ
  | .prepare arguments world => (m.prepare arguments world).value.2
  | .run _ _ => m
  | .finalize world => (m.finalize world).value.2

/-- The events that a request leaves. -/
def eventsOf (m : FileTypeModule σ) : Request σ → List Event
  | .prepare arguments world => (m.prepare arguments world).events
  | .run file world => (m.run file world).events
  | .finalize world => (m.finalize world).events

/-- What a request makes the module post with success. -/
def postedOn (m : FileTypeModule σ) : Request σ → List (FileId × Option String)
  | .run file world => postedIn file.id (m.callsOf file world)
  | .prepare _ _ | .finalize _ => []

/-- What requests bring one after the other. -/
def gather {α : Type} (what : FileTypeModule σ → Request σ → List α) :
    FileTypeModule σ → List (Request σ) → List α
  | _, [] => []
  | m, request :: later => what m request ++ gather what (m.after request) later

/-- The findings that a request leaves are what it made the module post. -/
theorem findings_eventsOf (m : FileTypeModule σ) (request : Request σ) :
    ((m.eventsOf request).filterMap Event.finding?).map
        (fun finding => (finding.file, some finding.label)) = m.postedOn request := by
  cases request with
  | prepare arguments world =>
    have hnone : (m.eventsOf (.prepare arguments world)).filterMap Event.finding? = [] :=
      List.filterMap_eq_nil_iff.2 fun _ => finding?_of_mem_prepare
    rw [hnone]
    rfl
  | run file world => exact (m.accounts_run file world).findings
  | finalize world =>
    have hnone : (m.eventsOf (.finalize world)).filterMap Event.finding? = [] :=
      List.filterMap_eq_nil_iff.2 fun _ => finding?_of_mem_finalize
    rw [hnone]
    rfl

theorem findings_gather (m : FileTypeModule σ) (requests : List (Request σ)) :
    ((gather eventsOf m requests).filterMap Event.finding?).map
        (fun finding => (finding.file, some finding.label)) = gather postedOn m requests := by
  induction requests generalizing m with
  | nil => rfl
  | cons request later ih =>
    rw [gather, gather, List.filterMap_append, List.map_append, ih, findings_eventsOf]

end Requests

end FileTypeModule

end Hallmark
