import Mathlib.Data.Multiset.AddSub
import Hallmark.Host.Memory
import Hallmark.Host.Session
import Hallmark.Proofs.Blackboard.Folder
import Hallmark.Proofs.Module.Calls

/-!
# `Hallmark/Proofs/Module/Run.lean` — when a run succeeds, and what it posts

A run of the file type module succeeds if each step that the file calls for does, and fails otherwise;
only where there can be no buffer of the size that the settings ask for it panics. It asks the matcher once
at most, about just the bytes that were read, and posts once at most, a fact that says what the matcher
answered. So the facts on a blackboard that stores nothing on failure (`Tracks`) tell which runs succeeded.
Main statement: `run_steps`.
-/

set_option autoImplicit false

namespace Hallmark

open Blackboard (Artifact Attribute)
open Host (Buffer MemoryFile Session Surroundings)

variable {σ : Type}

def Call.isIdentify : Call → Bool
  | identify _ _ => true
  | _ => false

def Call.isPost : Call → Bool
  | post _ _ => true
  | _ => false

namespace FileTypeModule

/-- The fact that is posted for an identification: the MIME type or the description as a clean label,
whichever the settings ask for; the description where no MIME type is known. -/
structure Reports (config : ModuleConfig) (identification : Identification) (fact : Attribute) :
    Prop where
  type : fact.type = .fileTypeSig
  source : fact.source = "FileTypeSigModule"
  context : fact.context = ""
  value : fact.value = .text (Content.cleanLabel
    (Text.Utf8.bytes (if config.labelFormat = .mime then
        identification.mime.getD identification.description
      else identification.description)) config.maxLabelLength)

theorem reports_factOf (config : ModuleConfig) (identification : Identification)
    (time : Time.Timestamp) : Reports config identification (factOf config identification time) where
  type := rfl
  source := rfl
  context := rfl
  value := by
    rw [factOf, labelOf, LabelFormat.select.eq_def]
    cases config.labelFormat <;> cases identification.mime <;> rfl

/-! ## The facts on a blackboard -/

/-- What was posted can be seen in the world: reading and asking the matcher change nothing of it, a
post that succeeds adds its fact, and a post that fails adds nothing. -/
structure Tracks (m : FileTypeModule σ) (file : HostFile σ) (facts : σ → Multiset Attribute) :
    Prop where
  read : ∀ (offset : Nat) {room : Nat} (buffer : Buffer room) world,
    facts (file.read offset buffer world).2 = facts world
  identify : ∀ matcher ∈ m.matcher, ∀ bytes world,
    facts (matcher.identify bytes world).2 = facts world
  stored : ∀ fact world after, file.post fact world = (.ok (), after) →
    facts after = fact ::ₘ facts world
  refused : ∀ fact world error after, file.post fact world = (.error error, after) →
    facts after = facts world

variable {m : FileTypeModule σ} {file : HostFile σ} {world : σ}

theorem Tracks.of_read {facts : σ → Multiset Attribute} (ht : Tracks m file facts)
    {answer : Except Host.FileError (Nat × Buffer m.config.bufferSize)} {middle : σ}
    (hr : file.read 0 (Buffer.zeros m.config.bufferSize) world = (answer, middle)) :
    facts middle = facts world := by
  have h := ht.read 0 (Buffer.zeros m.config.bufferSize) world
  rw [hr] at h
  exact h

theorem Tracks.of_identify {facts : σ → Multiset Attribute} (ht : Tracks m file facts)
    {matcher : Matcher σ} (hm : m.matcher = some matcher) {bytes : List UInt8}
    {answer : Except Matcher.MatchError Identification} {middle last : σ}
    (hi : matcher.identify bytes middle = (answer, last)) : facts last = facts middle := by
  have h := ht.identify matcher (Option.mem_def.2 hm) bytes middle
  rw [hi] at h
  exact h

/-- The facts about a file, in no order. -/
def factsAbout [Blackboard σ] (id : FileId) (world : σ) : Multiset Attribute :=
  (Blackboard.artifacts id world).flatMap Artifact.attributes

theorem attributes_appendGeneral (freshId : String) (id : FileId) (fact : Attribute)
    (artifacts : List Artifact) :
    ((Blackboard.appendGeneral freshId id fact artifacts).flatMap Artifact.attributes).Perm
      (fact :: artifacts.flatMap Artifact.attributes) := by
  induction artifacts with
  | nil => exact List.Perm.refl _
  | cons artifact rest ih =>
    rw [Blackboard.appendGeneral]
    split
    · simp only [List.flatMap_cons, List.append_assoc]
      exact List.perm_middle
    · simp only [List.flatMap_cons]
      exact (ih.append_left _).trans List.perm_middle

/-- The index of a folder changes only if the document is written. -/
theorem index_post_folder [Disk σ] (folder : Blackboard.Folder) (freshId : String)
    (id : FileId) (fact : Attribute) (world : σ) :
    ((folder.post freshId id fact world).1.1 = .ok () ∧
      (folder.post freshId id fact world).1.2.index = folder.index.post freshId id fact) ∨
    ((folder.post freshId id fact world).1.1 ≠ .ok () ∧
      (folder.post freshId id fact world).1.2.index = folder.index) := by
  obtain ⟨⟨answer, next⟩, after, hp⟩ : ∃ posted after,
      folder.post freshId id fact world = (posted, after) := ⟨_, _, rfl⟩
  rw [hp]
  cases answer with
  | ok =>
    obtain ⟨-, rfl⟩ := Blackboard.Folder.of_post_ok hp
    exact .inl ⟨rfl, rfl⟩
  | error e =>
    obtain ⟨-, rfl⟩ := Blackboard.Folder.of_post_error hp
    exact .inr ⟨by simp, rfl⟩

/-- A post to a session adds its fact to the index of the blackboard, or leaves the index as it is. -/
theorem index_post (id : FileId) (fact : Attribute) (session : Session) :
    ((Session.post id fact session).1 = .ok () ∧
      (Session.post id fact session).2.store.index =
        session.store.index.post (Session.identifier session.serial) id fact) ∨
    ((Session.post id fact session).1 ≠ .ok () ∧
      (Session.post id fact session).2.store.index = session.store.index) := by
  obtain ⟨volume, store, scripts, time, serial⟩ := session
  cases store with
  | memory index => exact .inl ⟨rfl, rfl⟩
  | folder folder =>
    have hindex := index_post_folder folder (Session.identifier serial) id fact
      (Session.mk volume (.folder folder) scripts time (serial + 1))
    obtain ⟨⟨answer, kept⟩, written, hw⟩ : ∃ posted written,
        folder.post (Session.identifier serial) id fact
          (Session.mk volume (.folder folder) scripts time (serial + 1)) = (posted, written) :=
      ⟨_, _, rfl⟩
    rw [hw] at hindex
    have hpost : Session.post id fact ⟨volume, .folder folder, scripts, time, serial⟩ =
        (answer, { written with store := .folder kept }) := by
      simp [Session.post, Session.freshId, hw, bind, StateT.bind, get, getThe, MonadStateOf.get,
        StateT.get, modify, modifyGet, MonadStateOf.modifyGet, StateT.modifyGet, pure]
      rfl
    rw [hpost]
    exact hindex

/-- On either kind of blackboard of a session, the facts about a file in memory are those posted. -/
theorem tracks_session {m : FileTypeModule Session} {number : Nat} {session : Session}
    (hm : ∀ matcher ∈ m.matcher, matcher = session.scripted number) (memory : MemoryFile) :
    Tracks m memory.toHostFile (factsAbout memory.id) where
  read := fun _ _ _ _ => rfl
  identify := by
    intro matcher hmatcher bytes world
    rw [hm matcher hmatcher]
    rfl
  stored := by
    intro fact world after hp
    have hpost : Session.post memory.id fact world = (.ok (), after) := hp
    rcases index_post memory.id fact world with ⟨-, hindex⟩ | ⟨hne, -⟩
    · rw [hpost] at hindex
      have hartifacts : after.store.index.artifacts memory.id =
          Blackboard.appendGeneral (Session.identifier world.serial) memory.id fact
            (world.store.index.artifacts memory.id) := by
        rw [hindex, Blackboard.Index.artifacts_post, if_pos rfl]
      have hperm := attributes_appendGeneral (Session.identifier world.serial) memory.id fact
        (world.store.index.artifacts memory.id)
      rw [← hartifacts] at hperm
      exact Multiset.coe_eq_coe.2 hperm
    · exact absurd (congrArg Prod.fst hpost) hne
  refused := by
    intro fact world error after hp
    have hpost : Session.post memory.id fact world = (.error error, after) := hp
    rcases index_post memory.id fact world with ⟨hok, -⟩ | ⟨-, hindex⟩
    · rw [hpost] at hok
      cases hok
    · rw [hpost] at hindex
      have hartifacts : after.store.index.artifacts memory.id =
          world.store.index.artifacts memory.id := congrArg (·.artifacts memory.id) hindex
      exact congrArg (fun artifacts => (artifacts.flatMap Artifact.attributes : Multiset Attribute))
        hartifacts

/-! ## How a run ends -/

variable [Surroundings σ] {after : σ} {ending : Ending Status} {calls : List Call}

/-- The steps of a run on a file that is not empty, each with an answer that lets the run go on. -/
def Completes (m : FileTypeModule σ) (matcher : Matcher σ) (file : HostFile σ) (world : σ) : Prop :=
  m.config.bufferSize ≤ Buffer.limit ∧ ∃ count filled identification middle last after,
    file.read 0 (Buffer.zeros m.config.bufferSize) world = (.ok (count, filled), middle) ∧ 0 < count ∧
    matcher.identify (filled.front count) middle = (.ok identification, last) ∧
    file.post (factOf m.config identification (Surroundings.now last)) last = (.ok (), after)

/-- A run panics only where it comes to the buffer and there can be none, and then has done nothing. -/
theorem Runs.eq_panicked_iff (h : m.Runs file world ending after calls) :
    ending = .panicked ↔
      m.isInitialized = true ∧ file.size ≠ 0 ∧ Buffer.limit < m.config.bufferSize := by
  rw [isInitialized]
  cases h with
  | unprepared hm => simp [hm]
  | skipped hm hs => simp [hs]
  | panicked hm hs hb => simp [hm, hs, hb]
  | unread hm hs hb | nothingRead hm hs hb | unidentified hm hs hb | refused hm hs hb
  | posted hm hs hb => simp [Nat.not_lt_of_le hb]

theorem Runs.of_panicked (h : m.Runs file world .panicked after calls) : after = world ∧ calls = [] := by
  cases h
  exact ⟨rfl, rfl⟩

theorem Runs.ending_eq (h : m.Runs file world ending after calls) :
    ending = .panicked ∨ ending = .returned .ok ∨ ending = .returned .fail := by
  cases h with
  | panicked => exact .inl rfl
  | skipped | posted => exact .inr (.inl rfl)
  | unprepared | unread | nothingRead | unidentified | refused => exact .inr (.inr rfl)

/-- Whatever step a run failed at does not have the answer that it needs. -/
theorem Runs.eq_ok_iff (h : m.Runs file world ending after calls) :
    ending = .returned .ok ↔
      ∃ matcher, m.matcher = some matcher ∧ (file.size = 0 ∨ m.Completes matcher file world) := by
  constructor
  · rintro rfl
    cases h with
    | skipped hm hs => exact ⟨_, hm, .inl hs⟩
    | posted hm hs hb hr hc hi hp =>
      exact ⟨_, hm, .inr ⟨hb, _, _, _, _, _, _, hr, Nat.pos_of_ne_zero hc, hi, hp⟩⟩
  · rintro ⟨matcher, hm, hs | ⟨hb, count, filled, identification, middle, last, final, hr, hpos, hi, hp⟩⟩
    · cases h with
      | unprepared hm' => simp [hm] at hm'
      | skipped | posted => rfl
      | panicked _ hs' | unread _ hs' | nothingRead _ hs' | unidentified _ hs' | refused _ hs' =>
        exact absurd hs hs'
    · cases h with
      | unprepared hm' => simp [hm] at hm'
      | skipped | posted => rfl
      | panicked _ _ hb' => exact absurd hb (Nat.not_le_of_lt hb')
      | unread _ _ _ hr' => cases hr.symm.trans hr'
      | nothingRead _ _ _ hr' =>
        cases hr.symm.trans hr'
        exact absurd hpos (Nat.lt_irrefl 0)
      | unidentified hm' _ _ hr' _ hi' =>
        obtain rfl := Option.some.inj (hm.symm.trans hm')
        cases hr.symm.trans hr'
        cases hi.symm.trans hi'
      | refused hm' _ _ hr' _ hi' hp' =>
        obtain rfl := Option.some.inj (hm.symm.trans hm')
        cases hr.symm.trans hr'
        cases hi.symm.trans hi'
        cases hp.symm.trans hp'

/-! ## The calls of a run -/

/-- Some bytes are what a read left at the front of a buffer: as many as it answered, if there was room. -/
def IsFront (bytes : List UInt8) (room count : Nat) (filled : List UInt8) : Prop :=
  0 < count ∧ bytes = filled.take count ∧ (count ≤ room → bytes.length = count)

theorem isFront {room count : Nat} (filled : Buffer room) (hc : count ≠ 0) :
    IsFront (filled.front count) room count filled.bytes := by
  refine ⟨Nat.pos_of_ne_zero hc, rfl, fun hle => ?_⟩
  rw [Buffer.length_front, Nat.min_eq_left hle]

/-- The matcher is asked only after bytes were read, and about just these. -/
theorem Runs.of_identify (h : m.Runs file world ending after calls) {before rest : List Call}
    {bytes : List UInt8} {answer : Except Matcher.MatchError Identification}
    (hc : calls = before ++ .identify bytes answer :: rest) :
    ∃ count filled, before = [.read 0 m.config.bufferSize (.ok (count, filled))] ∧
      IsFront bytes m.config.bufferSize count filled := by
  cases h with
  | unprepared | skipped | panicked => simp at hc
  | unread | nothingRead => simp [List.cons_eq_append_iff] at hc
  | unidentified _ _ _ _ hne | refused _ _ _ _ hne | posted _ _ _ _ hne =>
    simp only [List.cons_eq_append_iff, List.cons.injEq, reduceCtorEq, false_and, and_false,
      exists_false, or_false, false_or, Call.identify.injEq, List.nil_eq, List.append_eq_nil_iff] at hc
    obtain ⟨_, rfl, rfl, ⟨rfl, -⟩, -⟩ := hc
    exact ⟨_, _, rfl, isFront _ hne⟩

/-- A fact is posted only after the matcher answered, and reports its answer. -/
theorem Runs.of_post (h : m.Runs file world ending after calls) {before rest : List Call}
    {fact : Attribute} {answer : Except Blackboard.BlackboardError Unit}
    (hc : calls = before ++ .post fact answer :: rest) :
    ∃ read bytes identification, before = [.read 0 m.config.bufferSize (.ok read),
        .identify bytes (.ok identification)] ∧ Reports m.config identification fact := by
  cases h with
  | unprepared | skipped | panicked => simp at hc
  | unread | nothingRead | unidentified => simp [List.cons_eq_append_iff] at hc
  | refused | posted =>
    simp only [List.cons_eq_append_iff, List.cons.injEq, reduceCtorEq, false_and, and_false,
      exists_const, or_false, false_or, ↓existsAndEq, true_and, Call.post.injEq, List.nil_eq,
      List.append_eq_nil_iff] at hc
    obtain ⟨rfl, ⟨rfl, -⟩, -⟩ := hc
    exact ⟨_, _, _, rfl, reports_factOf _ _ _⟩

theorem Runs.countP_isIdentify (h : m.Runs file world ending after calls) :
    calls.countP Call.isIdentify ≤ 1 := by
  cases h <;> simp [List.countP_cons, Call.isIdentify]

theorem Runs.countP_isPost (h : m.Runs file world ending after calls) :
    calls.countP Call.isPost ≤ 1 := by
  cases h <;> simp [List.countP_cons, Call.isPost]

/-- From a file in memory the matcher gets as much of its start as there is room for. -/
theorem Runs.of_identify_memory [Blackboard σ] {memory : MemoryFile}
    (h : m.Runs memory.toHostFile world ending after calls) {bytes : List UInt8}
    {answer : Except Matcher.MatchError Identification} (hc : .identify bytes answer ∈ calls) :
    bytes = memory.content.take (min m.config.bufferSize memory.content.length) := by
  have hread : ∀ {count : Nat} {filled : Buffer m.config.bufferSize} {middle : σ},
      memory.toHostFile.read 0 (Buffer.zeros m.config.bufferSize) world = (.ok (count, filled), middle) →
        filled.front count = memory.content.take (min m.config.bufferSize memory.content.length) := by
    intro count filled middle hr
    cases hr
    have hfits : (Host.window memory.content 0 m.config.bufferSize).length ≤ m.config.bufferSize := by
      rw [Host.length_window]
      exact Nat.min_le_left _ _
    rw [Buffer.front, Buffer.bytes_write hfits, List.take_left, Host.window, List.drop_zero, Nat.min_comm,
      List.take_eq_take_min, Nat.min_comm]
  cases h with
  | unprepared | skipped | panicked | unread | nothingRead => simp at hc
  | unidentified _ _ _ hr | refused _ _ _ hr | posted _ _ _ hr =>
    simp only [List.mem_cons, reduceCtorEq, false_or, Call.identify.injEq, List.not_mem_nil,
      or_false] at hc
    rw [hc.1]
    exact hread hr

/-- Only a run that succeeds on a file that is not empty leaves a fact, and no more than one. -/
theorem Runs.facts_eq (h : m.Runs file world ending after calls) {facts : σ → Multiset Attribute}
    (ht : Tracks m file facts) :
    (ending = .returned .ok → file.size ≠ 0 →
      ∃ fact, .post fact (.ok ()) ∈ calls ∧ facts after = fact ::ₘ facts world) ∧
    (ending ≠ .returned .ok ∨ file.size = 0 → facts after = facts world) := by
  cases h with
  | unprepared | skipped | panicked => simp_all
  | unread _ _ _ hr | nothingRead _ _ _ hr =>
    have hsame := ht.of_read hr
    simp [hsame]
  | unidentified hm _ _ hr _ hi =>
    have hsame := (ht.of_identify hm hi).trans (ht.of_read hr)
    simp [hsame]
  | refused hm _ _ hr _ hi hp =>
    have hsame := (ht.refused _ _ _ _ hp).trans ((ht.of_identify hm hi).trans (ht.of_read hr))
    simp [hsame]
  | posted hm hs _ hr _ hi hp =>
    have hsame := (ht.of_identify hm hi).trans (ht.of_read hr)
    have hadded := ht.stored _ _ _ hp
    rw [hsame] at hadded
    refine ⟨fun _ _ => ⟨_, ?_, hadded⟩, ?_⟩
    · simp
    · rintro (hfail | hempty)
      · exact absurd rfl hfail
      · exact absurd hempty hs

/-! ## The whole run -/

/-- **A run succeeds if each step that its file calls for does, and posts what it found once.** It returns
unless there can be no buffer. -/
theorem run_steps (m : FileTypeModule σ) (file : HostFile σ) (world : σ) :
    -- It panics where an allocation cannot have as many bytes as the settings ask for, and does nothing then.
    ((m.run file world).value = .panicked ↔
      m.isInitialized = true ∧ file.size ≠ 0 ∧ Buffer.limit < m.config.bufferSize) ∧
    ((m.run file world).value = .panicked →
      (m.run file world).world = world ∧ m.callsOf file world = []) ∧
    -- Otherwise it succeeds or fails, and each step has to go on.
    ((m.run file world).value = .returned .ok ↔
      ∃ matcher, m.matcher = some matcher ∧ (file.size = 0 ∨ m.Completes matcher file world)) ∧
    ((m.run file world).value = .panicked ∨ (m.run file world).value = .returned .ok ∨
      (m.run file world).value = .returned .fail) ∧
    -- The matcher is asked once at most, about just the bytes that were read before.
    (m.callsOf file world).countP Call.isIdentify ≤ 1 ∧
    (∀ before bytes answer rest, m.callsOf file world = before ++ .identify bytes answer :: rest →
      ∃ count filled, before = [.read 0 m.config.bufferSize (.ok (count, filled))] ∧
        IsFront bytes m.config.bufferSize count filled) ∧
    (∀ [Blackboard σ] (memory : MemoryFile) (bytes : List UInt8) answer,
      .identify bytes answer ∈ m.callsOf memory.toHostFile world →
        bytes = memory.content.take (min m.config.bufferSize memory.content.length)) ∧
    -- A fact is posted once at most, after the matcher answered, and reports its answer.
    (m.callsOf file world).countP Call.isPost ≤ 1 ∧
    (∀ before fact answer rest, m.callsOf file world = before ++ .post fact answer :: rest →
      ∃ read bytes identification, before = [.read 0 m.config.bufferSize (.ok read),
        .identify bytes (.ok identification)] ∧ Reports m.config identification fact) ∧
    -- What is on the blackboard afterwards is known from this.
    ∀ facts, Tracks m file facts →
      ((m.run file world).value = .returned .ok → file.size ≠ 0 →
        ∃ fact, .post fact (.ok ()) ∈ m.callsOf file world ∧
          facts (m.run file world).world = fact ::ₘ facts world) ∧
      ((m.run file world).value ≠ .returned .ok ∨ file.size = 0 →
        facts (m.run file world).world = facts world) := by
  have h := m.runs_run file world
  refine ⟨h.eq_panicked_iff, ?_, h.eq_ok_iff, h.ending_eq, h.countP_isIdentify,
    fun _ _ _ _ => h.of_identify,
    fun memory _ _ hc => (m.runs_run memory.toHostFile world).of_identify_memory hc,
    h.countP_isPost, fun _ _ _ _ => h.of_post, fun _ => h.facts_eq⟩
  intro hpanicked
  rw [hpanicked] at h
  exact h.of_panicked

/-- A file of four bytes, of which two are read, on an empty blackboard. -/
theorem run_steps_posted :
    ∃ (m : FileTypeModule Session) (memory : MemoryFile) (session : Session),
      m.config.bufferSize = 2 ∧ memory.content = [0x89, 0x50, 0x4E, 0x47] ∧
      Tracks m memory.toHostFile (factsAbout memory.id) ∧
      (m.run memory.toHostFile session).value = .returned .ok ∧
      ∃ identification fact, Reports m.config identification fact ∧
        factsAbout memory.id (m.run memory.toHostFile session).world = {fact} := by
  let session : Session := { scripts := [{ usual := ⟨"PNG image data", some "image/png"⟩ }] }
  let m : FileTypeModule Session :=
    { config := { bufferSize := 2, labelFormat := .mime }, matcher := some (session.scripted 0) }
  let memory : MemoryFile := { id := ⟨7⟩, content := [0x89, 0x50, 0x4E, 0x47] }
  have ht : Tracks m memory.toHostFile (factsAbout memory.id) :=
    tracks_session (fun _ hmatcher => (Option.some.inj hmatcher).symm) memory
  have hrun : (m.run memory.toHostFile session).value = .returned .ok := rfl
  obtain ⟨-, -, -, -, -, -, -, -, hpost, hfacts⟩ := run_steps m memory.toHostFile session
  obtain ⟨fact, hmem, hafter⟩ := (hfacts _ ht).1 hrun (by decide)
  obtain ⟨before, rest, hcalls⟩ := List.append_of_mem hmem
  obtain ⟨read, bytes, identification, -, hreports⟩ := hpost before fact _ rest hcalls
  exact ⟨m, memory, session, rfl, rfl, ht, hrun, identification, fact, hreports, hafter⟩

/-- The largest word of 64 bits is a buffer size that the settings may have and a preparation accepts. A run
on four bytes then neither succeeds nor fails, though the matcher would know them. -/
theorem run_steps_panicked :
    ∃ (m : FileTypeModule Session) (memory : MemoryFile) (session : Session),
      m.config.bufferSize = 0xFFFFFFFFFFFFFFFF ∧ m.config.validate = .ok () ∧
      ((m.prepare "" session).value.1 = .ok ∧ m.isInitialized = true) ∧
      memory.content = [0x89, 0x50, 0x4E, 0x47] ∧
      (m.run memory.toHostFile session).value = .panicked := by
  let session : Session := { scripts := [{ usual := ⟨"PNG image data", some "image/png"⟩ }] }
  let config : ModuleConfig := { bufferSize := 0xFFFFFFFFFFFFFFFF }
  let m : FileTypeModule Session :=
    { FileTypeModule.ofMatcher (session.scripted 0) with config := config }
  let memory : MemoryFile := { id := ⟨7⟩, content := [0x89, 0x50, 0x4E, 0x47] }
  exact ⟨m, memory, session, rfl, by decide, ⟨by decide, rfl⟩, rfl, by decide⟩

end FileTypeModule

end Hallmark
