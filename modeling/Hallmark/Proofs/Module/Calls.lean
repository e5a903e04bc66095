import Hallmark.Module.FileType

/-!
# `Hallmark/Proofs/Module/Calls.lean` — the calls that a run makes

What a run asks of its file and its matcher cannot be told from the world that it leaves. `Recorded`
adds to a world the calls made in it, each with its answer, and `callsOf` is the record of a run in
which file and matcher note every call. `Runs` says what a run does, up to the first of its steps that
fails, or panics. Main statement: every run is one of these (`runs_run`).
-/

set_option autoImplicit false

namespace Hallmark

open Blackboard (Attribute BlackboardError)
open Host (Buffer FileError Surroundings)
open Matcher (MatchError)

variable {σ : Type}

/-! ## Recording -/

/-- A call to a file or to a matcher, with its answer. -/
inductive Call where
  /-- A read into a buffer, with the number that it answered and the bytes of the buffer afterwards. -/
  | read (offset room : Nat) (answer : Except FileError (Nat × List UInt8))
  | identify (bytes : List UInt8) (answer : Except MatchError Identification)
  | post (fact : Attribute) (answer : Except BlackboardError Unit)

structure Recorded (σ : Type) where
  world : σ
  calls : List Call

/-- An operation that notes its call. -/
def noting {α : Type} (call : α → Call) (operation : StateM σ α) : StateM (Recorded σ) α :=
  fun recorded =>
    let (answer, after) := operation recorded.world
    (answer, ⟨after, recorded.calls ++ [call answer]⟩)

instance [Surroundings σ] : Surroundings (Recorded σ) where
  now recorded := Surroundings.now recorded.world
  ticks recorded := Surroundings.ticks recorded.world
  freshId := fun recorded =>
    let (id, after) := Surroundings.freshId recorded.world
    (id, { recorded with world := after })

@[simp] theorem now_recorded [Surroundings σ] (world : σ) (calls : List Call) :
    Surroundings.now (Recorded.mk world calls) = Surroundings.now world := rfl

/-- The same file, noting calls. -/
def HostFile.recorded (file : HostFile σ) : HostFile (Recorded σ) where
  id := file.id
  name := file.name
  size := file.size
  read := fun offset room buffer =>
    noting (fun answer => .read offset room (answer.map fun (count, filled) => (count, filled.bytes)))
      (file.read offset buffer)
  post fact := noting (.post fact) (file.post fact)

def Matcher.recorded (matcher : Matcher σ) : Matcher (Recorded σ) where
  name := matcher.name
  databaseVersion := matcher.databaseVersion
  identify bytes := noting (.identify bytes) (matcher.identify bytes)

namespace FileTypeModule

/-- The same module, with matchers that note calls. -/
def recorded (m : FileTypeModule σ) : FileTypeModule (Recorded σ) where
  config := m.config
  preset := m.preset.map Matcher.recorded
  matcher := m.matcher.map Matcher.recorded

variable [Surroundings σ] {m : FileTypeModule σ} {file : HostFile σ} {world : σ}

/-- The calls that a run makes, in order. -/
def callsOf (m : FileTypeModule σ) (file : HostFile σ) (world : σ) : List Call :=
  (m.recorded.run file.recorded ⟨world, []⟩).world.calls

/-! ## What a run does -/

/-- The fact that is posted for an identification. -/
def factOf (config : ModuleConfig) (identification : Identification) (time : Time.Timestamp) :
    Attribute :=
  { type := .fileTypeSig
    source := "FileTypeSigModule"
    context := ""
    value := .text (labelOf config identification)
    createdAt := time }

theorem factOf_eq (config : ModuleConfig) (identification : Identification) (time : Time.Timestamp) :
    factOf config identification time =
      { type := .fileTypeSig, source := info.name, value := .text (labelOf config identification),
        createdAt := time } := rfl

/-- How a run of a module on a file ends, the world that it leaves and the calls that it makes: one case for
each step that can be the last. -/
inductive Runs (m : FileTypeModule σ) (file : HostFile σ) (world : σ) :
    Ending Status → σ → List Call → Prop
  | unprepared (hm : m.matcher = none) : Runs m file world (.returned .fail) world []
  | skipped {matcher : Matcher σ} (hm : m.matcher = some matcher) (hs : file.size = 0) :
      Runs m file world (.returned .ok) world []
  | panicked {matcher : Matcher σ} (hm : m.matcher = some matcher) (hs : file.size ≠ 0)
      (hb : Buffer.limit < m.config.bufferSize) : Runs m file world .panicked world []
  | unread {matcher : Matcher σ} {error : FileError} {after : σ} (hm : m.matcher = some matcher)
      (hs : file.size ≠ 0) (hb : m.config.bufferSize ≤ Buffer.limit)
      (hr : file.read 0 (Buffer.zeros m.config.bufferSize) world = (.error error, after)) :
      Runs m file world (.returned .fail) after [.read 0 m.config.bufferSize (.error error)]
  | nothingRead {matcher : Matcher σ} {filled : Buffer m.config.bufferSize} {after : σ}
      (hm : m.matcher = some matcher) (hs : file.size ≠ 0) (hb : m.config.bufferSize ≤ Buffer.limit)
      (hr : file.read 0 (Buffer.zeros m.config.bufferSize) world = (.ok (0, filled), after)) :
      Runs m file world (.returned .fail) after [.read 0 m.config.bufferSize (.ok (0, filled.bytes))]
  | unidentified {matcher : Matcher σ} {count : Nat} {filled : Buffer m.config.bufferSize}
      {error : MatchError} {middle after : σ} (hm : m.matcher = some matcher) (hs : file.size ≠ 0)
      (hb : m.config.bufferSize ≤ Buffer.limit)
      (hr : file.read 0 (Buffer.zeros m.config.bufferSize) world = (.ok (count, filled), middle))
      (hc : count ≠ 0) (hi : matcher.identify (filled.front count) middle = (.error error, after)) :
      Runs m file world (.returned .fail) after
        [.read 0 m.config.bufferSize (.ok (count, filled.bytes)),
          .identify (filled.front count) (.error error)]
  | refused {matcher : Matcher σ} {count : Nat} {filled : Buffer m.config.bufferSize}
      {identification : Identification} {error : BlackboardError} {middle last after : σ}
      (hm : m.matcher = some matcher) (hs : file.size ≠ 0) (hb : m.config.bufferSize ≤ Buffer.limit)
      (hr : file.read 0 (Buffer.zeros m.config.bufferSize) world = (.ok (count, filled), middle))
      (hc : count ≠ 0)
      (hi : matcher.identify (filled.front count) middle = (.ok identification, last))
      (hp : file.post (factOf m.config identification (Surroundings.now last)) last =
        (.error error, after)) :
      Runs m file world (.returned .fail) after
        [.read 0 m.config.bufferSize (.ok (count, filled.bytes)),
          .identify (filled.front count) (.ok identification),
          .post (factOf m.config identification (Surroundings.now last)) (.error error)]
  | posted {matcher : Matcher σ} {count : Nat} {filled : Buffer m.config.bufferSize}
      {identification : Identification} {middle last after : σ} (hm : m.matcher = some matcher)
      (hs : file.size ≠ 0) (hb : m.config.bufferSize ≤ Buffer.limit)
      (hr : file.read 0 (Buffer.zeros m.config.bufferSize) world = (.ok (count, filled), middle))
      (hc : count ≠ 0)
      (hi : matcher.identify (filled.front count) middle = (.ok identification, last))
      (hp : file.post (factOf m.config identification (Surroundings.now last)) last =
        (.ok (), after)) :
      Runs m file world (.returned .ok) after
        [.read 0 m.config.bufferSize (.ok (count, filled.bytes)),
          .identify (filled.front count) (.ok identification),
          .post (factOf m.config identification (Surroundings.now last)) (.ok ())]

/-- Both runs, the one that notes its calls and the other, go as far as the first step that fails. -/
theorem exists_runs (m : FileTypeModule σ) (file : HostFile σ) (world : σ) :
    ∃ ending after calls, m.Runs file world ending after calls ∧
      (m.run file world).value = ending ∧ (m.run file world).world = after ∧
      (m.recorded.run file.recorded ⟨world, []⟩).value = ending ∧
      (m.recorded.run file.recorded ⟨world, []⟩).world = ⟨after, calls⟩ := by
  cases hm : m.matcher with
  | none =>
    refine ⟨_, _, _, .unprepared hm, ?_⟩
    simp [run, identifyFile, recorded, hm]
  | some matcher =>
    by_cases hs : file.size = 0
    · refine ⟨_, _, _, .skipped hm hs, ?_⟩
      simp [run, identifyFile, recorded, HostFile.recorded, hm, hs]
    by_cases hb : m.config.bufferSize ≤ Buffer.limit
    · have hallocate : Buffer.allocate? m.config.bufferSize = some (.zeros _) := if_pos hb
      obtain ⟨answer, middle, hr⟩ : ∃ answer middle,
          file.read 0 (Buffer.zeros m.config.bufferSize) world = (answer, middle) := ⟨_, _, rfl⟩
      cases answer with
      | error error =>
        refine ⟨_, _, _, .unread hm hs hb hr, ?_⟩
        simp [run, identifyFile, identifyInto, examine, recorded, HostFile.recorded, noting, hm, hs,
          hallocate, hr, Except.map]
      | ok answer =>
        obtain ⟨count, filled⟩ := answer
        by_cases hc : count = 0
        · subst hc
          refine ⟨_, _, _, .nothingRead hm hs hb hr, ?_⟩
          simp [run, identifyFile, identifyInto, examine, recorded, HostFile.recorded, noting, hm, hs,
            hallocate, hr, Except.map]
        · obtain ⟨answer, last, hi⟩ : ∃ answer last,
              matcher.identify (filled.front count) middle = (answer, last) := ⟨_, _, rfl⟩
          cases answer with
          | error error =>
            refine ⟨_, _, _, .unidentified hm hs hb hr hc hi, ?_⟩
            simp [run, identifyFile, identifyInto, examine, recorded, HostFile.recorded,
              Matcher.recorded, noting, hm, hs, hallocate, hr, hc, hi, Except.map]
          | ok identification =>
            obtain ⟨answer, after, hp⟩ : ∃ answer after, file.post
                (factOf m.config identification (Surroundings.now last)) last = (answer, after) :=
              ⟨_, _, rfl⟩
            cases answer with
            | error error =>
              refine ⟨_, _, _, .refused hm hs hb hr hc hi hp, ?_⟩
              simp [run, identifyFile, identifyInto, examine, publish, recorded, HostFile.recorded,
                Matcher.recorded, noting, hm, hs, hallocate, hr, hc, hi, ← factOf_eq, hp, Except.map]
            | ok =>
              refine ⟨_, _, _, .posted hm hs hb hr hc hi hp, ?_⟩
              simp [run, identifyFile, identifyInto, examine, publish, recorded, HostFile.recorded,
                Matcher.recorded, noting, hm, hs, hallocate, hr, hc, hi, ← factOf_eq, hp, Except.map]
    · have hallocate : Buffer.allocate? m.config.bufferSize = none := if_neg hb
      refine ⟨_, _, _, .panicked hm hs (Nat.lt_of_not_le hb), ?_⟩
      simp [run, identifyFile, recorded, HostFile.recorded, hm, hs, hallocate]

/-- **Every run goes as far as its first step that fails,** or panics. -/
theorem runs_run (m : FileTypeModule σ) (file : HostFile σ) (world : σ) :
    m.Runs file world (m.run file world).value (m.run file world).world (m.callsOf file world) := by
  obtain ⟨ending, after, calls, h, hvalue, hworld, -, hrecorded⟩ := m.exists_runs file world
  rw [hvalue, hworld, callsOf, hrecorded]
  exact h

/-- Noting the calls of a run changes nothing about it. -/
theorem run_recorded (m : FileTypeModule σ) (file : HostFile σ) (world : σ) :
    (m.recorded.run file.recorded ⟨world, []⟩).value = (m.run file world).value ∧
      (m.recorded.run file.recorded ⟨world, []⟩).world.world = (m.run file world).world := by
  obtain ⟨ending, after, calls, -, hvalue, hworld, hrecorded, hafter⟩ := m.exists_runs file world
  rw [hvalue, hworld, hrecorded, hafter]
  exact ⟨rfl, rfl⟩

end FileTypeModule

end Hallmark
