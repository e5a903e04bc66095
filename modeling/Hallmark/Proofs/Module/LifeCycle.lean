import Hallmark.Host.Memory
import Hallmark.Host.Session
import Hallmark.Proofs.Module.Calls

/-!
# `Hallmark/Proofs/Module/LifeCycle.lean` — when the module is prepared

A module is prepared and finalized any number of times, with runs in between. What it did last decides:
it has a matcher after a preparation that succeeded, and none after one that failed or after it was
finalized, whatever came before and whatever it was made with. A history lists the calls with what came
of them; each happens in a world of its own, since files come and go between calls. Main statement:
`history_prepared`.
-/

set_option autoImplicit false

namespace Hallmark

namespace FileTypeModule

open Host (Buffer DatabaseLoader Surroundings)
open Hallmark.Module (databaseArgument?)

variable {σ : Type}

/-- A module with any settings, and with a matcher if it was made with one. -/
def made (config : ModuleConfig) : Option (Matcher σ) → FileTypeModule σ
  | none => { config := config }
  | some matcher => { ofMatcher matcher with config := config }

/-! ## One preparation -/

section Preparing

variable [DatabaseLoader σ] {m next : FileTypeModule σ} {arguments : String} {world : σ}
  {matcher : Matcher σ}

/-- The matcher that preparing a module leads to, if its settings are accepted. -/
inductive Chooses (m : FileTypeModule σ) (arguments : String) (world : σ) : Matcher σ → Prop
  | argument {path : String} {matcher : Matcher σ} (ha : databaseArgument? arguments = some path)
      (hl : DatabaseLoader.load path world = .ok matcher) : Chooses m arguments world matcher
  | preset {matcher : Matcher σ} (ha : databaseArgument? arguments = none)
      (hp : m.preset = some matcher) : Chooses m arguments world matcher
  | settings {path : String} {matcher : Matcher σ} (ha : databaseArgument? arguments = none)
      (hp : m.preset = none) (hd : m.config.databasePath? = some path)
      (hl : DatabaseLoader.load path world = .ok matcher) : Chooses m arguments world matcher

theorem loadDatabase_eq_ok_iff {path : String} :
    (loadDatabase path world).value = .ok matcher ↔ DatabaseLoader.load path world = .ok matcher := by
  cases h : DatabaseLoader.load path world <;> simp [loadDatabase, h]

theorem chooseMatcher_eq_ok_iff :
    (m.chooseMatcher arguments world).value = .ok matcher ↔
      m.config.validate = .ok () ∧ m.Chooses arguments world matcher := by
  constructor
  · intro h
    cases hv : m.config.validate with
    | error e => simp [chooseMatcher, hv] at h
    | ok =>
      refine ⟨rfl, ?_⟩
      cases ha : databaseArgument? arguments with
      | some path =>
        simp only [chooseMatcher, hv, ha, loadDatabase_eq_ok_iff] at h
        exact .argument ha h
      | none =>
        cases hp : m.preset with
        | some preset =>
          simp only [chooseMatcher, hv, ha, hp, Action.pure_apply, Except.ok.injEq] at h
          exact .preset ha (h ▸ hp)
        | none =>
          cases hd : m.config.databasePath? with
          | some path =>
            simp only [chooseMatcher, hv, ha, hp, hd, loadDatabase_eq_ok_iff] at h
            exact .settings ha hp hd h
          | none => simp [chooseMatcher, hv, ha, hp, hd] at h
  · rintro ⟨hv, hchooses⟩
    cases hchooses with
    | argument ha hl => simp [chooseMatcher, hv, ha, loadDatabase_eq_ok_iff, hl]
    | preset ha hp => simp [chooseMatcher, hv, ha, hp]
    | settings ha hp hd hl => simp [chooseMatcher, hv, ha, hp, hd, loadDatabase_eq_ok_iff, hl]

theorem prepare_of_chosen (hc : (m.chooseMatcher arguments world).value = .ok matcher) :
    (m.prepare arguments world).value = (.ok, { m with matcher := some matcher }) := by
  simp only [prepare, Action.bind_apply, Action.emitIf_apply, hc]
  rfl

theorem prepare_of_refused {e : ModuleError} (hc : (m.chooseMatcher arguments world).value = .error e) :
    (m.prepare arguments world).value = (.fail, { m with matcher := none }) := by
  simp only [prepare, Action.bind_apply, Action.emitIf_apply, hc]
  rfl

/-- Preparing a module succeeds with the matcher that it chooses. -/
theorem prepare_eq_ok_iff :
    (m.prepare arguments world).value.1 = .ok ↔
      m.config.validate = .ok () ∧ ∃ matcher, m.Chooses arguments world matcher := by
  simp only [← exists_and_left, ← chooseMatcher_eq_ok_iff]
  cases hc : (m.chooseMatcher arguments world).value with
  | error e => simp [prepare_of_refused hc]
  | ok matcher => simp [prepare_of_chosen hc]

theorem prepare_of_ok (h : (m.prepare arguments world).value = (.ok, next)) :
    ∃ matcher, m.Chooses arguments world matcher ∧ next = { m with matcher := some matcher } := by
  cases hc : (m.chooseMatcher arguments world).value with
  | error e => cases (prepare_of_refused hc).symm.trans h
  | ok matcher =>
    cases (prepare_of_chosen hc).symm.trans h
    exact ⟨matcher, (chooseMatcher_eq_ok_iff.1 hc).2, rfl⟩

theorem prepare_of_ne_ok {status : Status} (h : (m.prepare arguments world).value = (status, next))
    (hs : status ≠ .ok) : next = { m with matcher := none } := by
  cases hc : (m.chooseMatcher arguments world).value with
  | error e =>
    cases (prepare_of_refused hc).symm.trans h
    rfl
  | ok matcher =>
    cases (prepare_of_chosen hc).symm.trans h
    exact absurd rfl hs

/-- The matcher that the module was made with is taken if the arguments name no path, else that over the
path that they name or that of the settings. -/
theorem Chooses.spec (h : m.Chooses arguments world matcher) :
    if databaseArgument? arguments = none ∧ m.preset.isSome = true then m.preset = some matcher
    else ∃ path, (databaseArgument? arguments).or m.config.databasePath? = some path ∧
      DatabaseLoader.load path world = .ok matcher := by
  cases h with
  | argument ha hl =>
    rw [if_neg (by simp [ha])]
    exact ⟨_, by rw [ha, Option.some_or], hl⟩
  | preset ha hp =>
    rw [if_pos (by simp [ha, hp])]
    exact hp
  | settings ha hp hd hl =>
    rw [if_neg (by simp [hp])]
    exact ⟨_, by rw [ha, Option.none_or, hd], hl⟩

theorem exists_chooses_iff :
    (∃ matcher, m.Chooses arguments world matcher) ↔
      databaseArgument? arguments = none ∧ m.preset.isSome = true ∨
        ∃ path matcher, (databaseArgument? arguments).or m.config.databasePath? = some path ∧
          DatabaseLoader.load path world = .ok matcher := by
  constructor
  · rintro ⟨matcher, h⟩
    have hspec := h.spec
    split at hspec
    · rename_i hpreset
      exact .inl hpreset
    · obtain ⟨path, hpath, hl⟩ := hspec
      exact .inr ⟨path, matcher, hpath, hl⟩
  · rintro (⟨ha, hp⟩ | ⟨path, matcher, hpath, hl⟩)
    · obtain ⟨matcher, hmatcher⟩ := Option.isSome_iff_exists.1 hp
      exact ⟨matcher, .preset ha hmatcher⟩
    · cases ha : databaseArgument? arguments with
      | some named =>
        rw [ha, Option.some_or] at hpath
        exact ⟨matcher, .argument (ha.trans hpath) hl⟩
      | none =>
        rw [ha, Option.none_or] at hpath
        cases hp : m.preset with
        | none => exact ⟨matcher, .settings ha hp hpath hl⟩
        | some preset => exact ⟨preset, .preset ha hp⟩

end Preparing

/-! ## Runs without a matcher -/

section Running

variable {m : FileTypeModule σ} {file : HostFile σ} {world : σ}

theorem isPermanent_of_examine {matcher : Matcher σ} {room : Nat} {buffer : Buffer room} {e : ModuleError}
    (h : (examine matcher buffer file world).value = .error e) : e.isPermanent = false := by
  rw [examine, Action.bind_apply, Action.liftHost_apply] at h
  cases hr : (file.read 0 buffer world).1 with
  | error error =>
    rw [hr] at h
    cases h
    rfl
  | ok answer =>
    obtain ⟨count, filled⟩ := answer
    rw [hr] at h
    by_cases hc : count = 0
    · simp only [if_pos hc] at h
      cases h
      rfl
    · simp only [if_neg hc, Action.bind_apply, Action.liftHost_apply] at h
      cases hi : (matcher.identify (filled.front count) (file.read 0 buffer world).2).1 with
      | error error =>
        rw [hi] at h
        cases h
        rfl
      | ok identification =>
        rw [hi] at h
        cases h

variable [Surroundings σ]

/-- A run fails exactly if it comes to an error. -/
theorem run_eq_fail_iff :
    (m.run file world).value = .returned .fail ↔
      ∃ e, (m.identifyFile file world).value = .returned (.error e) := by
  cases h : (m.identifyFile file world).value with
  | panicked => simp [run, h]
  | returned result => cases result <;> simp [run, h]

/-- Without a matcher no file is looked at, not even whether it is empty. -/
theorem run_of_unprepared (hm : m.matcher = none) :
    (m.run file world).value = .returned .fail ∧ (m.run file world).world = world ∧
      m.callsOf file world = [] := by
  have hruns := m.runs_run file world
  revert hruns
  generalize (m.run file world).value = ending
  generalize (m.run file world).world = after
  generalize m.callsOf file world = calls
  intro hruns
  cases hruns with
  | unprepared => exact ⟨rfl, rfl, rfl⟩
  | _ => simp_all

theorem isPermanent_of_publish {config : ModuleConfig} {count : Nat}
    {identification : Identification} {e : ModuleError}
    (h : (publish config file count identification world).value = .error e) :
    e.isPermanent = false := by
  cases hp : (file.post (factOf config identification (Surroundings.now world)) world).1 with
  | error error =>
    simp only [publish, Action.bind_apply, Action.observe_apply, Action.liftHost_apply, ← factOf_eq,
      hp] at h
    cases h
    rfl
  | ok =>
    simp only [publish, Action.bind_apply, Action.observe_apply, Action.liftHost_apply, ← factOf_eq,
      hp] at h
    cases h

theorem isPermanent_of_identifyInto {config : ModuleConfig} {matcher : Matcher σ} {room : Nat}
    {buffer : Buffer room} {e : ModuleError}
    (h : (identifyInto config matcher buffer file world).value = .error e) : e.isPermanent = false := by
  rw [identifyInto, Action.bind_apply] at h
  cases hx : (examine matcher buffer file world).value with
  | error error =>
    rw [hx] at h
    cases h
    exact isPermanent_of_examine hx
  | ok examined =>
    rw [hx] at h
    exact isPermanent_of_publish h

/-- An error of a run is permanent only if there was no matcher. -/
theorem matcher_eq_none_of_isPermanent {e : ModuleError}
    (h : (m.identifyFile file world).value = .returned (.error e)) (he : e.isPermanent = true) :
    m.matcher = none := by
  cases hm : m.matcher with
  | none => rfl
  | some matcher =>
    have hnot : e.isPermanent = false := by
      rw [identifyFile, hm] at h
      dsimp only at h
      split at h
      · cases h
      · cases hb : Buffer.allocate? m.config.bufferSize with
        | none =>
          rw [hb] at h
          cases h
        | some buffer =>
          rw [hb] at h
          exact isPermanent_of_identifyInto (Ending.returned.inj h)
    rw [hnot] at he
    cases he

end Running

/-! ## Histories -/

/-- A call to a module, and what came of it. -/
inductive Exchange (σ : Type) where
  | prepared (arguments : String)
  | notPrepared (arguments : String)
  /-- A run with its error, if it failed (`run_eq_fail_iff`). -/
  | ran (file : HostFile σ) (ending : Ending (Except ModuleError Unit))
  | finalized

namespace Exchange

def IsRun : Exchange σ → Prop
  | ran _ _ => True
  | prepared _ | notPrepared _ | finalized => False

/-- A preparation that succeeded. -/
def IsPrepared : Exchange σ → Prop
  | prepared _ => True
  | notPrepared _ | ran _ _ | finalized => False

/-- A preparation that failed, or a finalization. -/
def IsUnprepared : Exchange σ → Prop
  | notPrepared _ | finalized => True
  | prepared _ | ran _ _ => False

/-- Whether a module is prepared after a call. -/
def leaves (ready : Bool) : Exchange σ → Bool
  | prepared _ => true
  | notPrepared _ | finalized => false
  | ran _ _ => ready

end Exchange

/-- Whether a module is prepared after some calls. -/
def readyAfter (ready : Bool) (log : List (Exchange σ)) : Bool := log.foldl Exchange.leaves ready

/-- A module is prepared if its last call apart from runs was a preparation that succeeded, or if there
was no such call and it was prepared from the start. -/
theorem readyAfter_iff {ready : Bool} {log : List (Exchange σ)} :
    readyAfter ready log = true ↔
      (∃ before x later, log = before ++ x :: later ∧ x.IsPrepared ∧ ∀ y ∈ later, y.IsRun) ∨
        (∀ y ∈ log, y.IsRun) ∧ ready = true := by
  induction log generalizing ready with
  | nil => simp [readyAfter]
  | cons first rest ih =>
    have hrest : readyAfter ready (first :: rest) = readyAfter (first.leaves ready) rest := rfl
    rw [hrest, ih]
    constructor
    · rintro (⟨before, x, later, rfl, hx, hlater⟩ | ⟨hruns, hready⟩)
      · exact .inl ⟨first :: before, x, later, rfl, hx, hlater⟩
      · cases first with
        | prepared arguments => exact .inl ⟨[], .prepared arguments, rest, rfl, trivial, hruns⟩
        | ran file result =>
          refine .inr ⟨?_, hready⟩
          intro y hy
          rcases List.mem_cons.1 hy with rfl | hy
          · trivial
          · exact hruns y hy
        | notPrepared => cases hready
        | finalized => cases hready
    · rintro (⟨before, x, later, hsplit, hx, hlater⟩ | ⟨hruns, hready⟩)
      · cases before with
        | nil =>
          obtain ⟨rfl, rfl⟩ := List.cons.inj hsplit
          cases first with
          | prepared => exact .inr ⟨hlater, rfl⟩
          | notPrepared => exact hx.elim
          | ran => exact hx.elim
          | finalized => exact hx.elim
        | cons _ before => exact .inl ⟨before, x, later, (List.cons.inj hsplit).2, hx, hlater⟩
      · have hfirst := hruns first List.mem_cons_self
        refine .inr ⟨fun y hy => hruns y (List.mem_cons_of_mem first hy), ?_⟩
        cases first with
        | ran => exact hready
        | prepared => exact hfirst.elim
        | notPrepared => exact hfirst.elim
        | finalized => exact hfirst.elim

/-- Without a preparation that succeeds, a module that is not prepared stays so. -/
theorem readyAfter_false {log : List (Exchange σ)} (h : ∀ y ∈ log, ¬ y.IsPrepared) :
    readyAfter false log = false := by
  induction log with
  | nil => rfl
  | cons first rest ih =>
    have hfirst : first.leaves false = false := by
      have hnot := h first List.mem_cons_self
      cases first with
      | prepared => exact absurd trivial hnot
      | _ => rfl
    change readyAfter (first.leaves false) rest = false
    rw [hfirst]
    exact ih fun y hy => h y (List.mem_cons_of_mem first hy)

section Histories

variable [DatabaseLoader σ] [Surroundings σ]

/-- What a call may come to, and the module afterwards. Running does not change a module. -/
inductive Answers (m : FileTypeModule σ) : Exchange σ → FileTypeModule σ → Prop
  | prepared {arguments : String} {world : σ} {next : FileTypeModule σ}
      (h : (m.prepare arguments world).value = (.ok, next)) : Answers m (.prepared arguments) next
  | notPrepared {arguments : String} {world : σ} {status : Status} {next : FileTypeModule σ}
      (h : (m.prepare arguments world).value = (status, next)) (hs : status ≠ .ok) :
      Answers m (.notPrepared arguments) next
  | ran (file : HostFile σ) (world : σ) : Answers m (.ran file (m.identifyFile file world).value) m
  | finalized (world : σ) : Answers m .finalized (m.finalize world).value.2

/-- The calls that lead from one state of a module to another. -/
inductive History : FileTypeModule σ → List (Exchange σ) → FileTypeModule σ → Prop
  | nil (m : FileTypeModule σ) : History m [] m
  | cons {m next now : FileTypeModule σ} {x : Exchange σ} {log : List (Exchange σ)}
      (hx : Answers m x next) (h : History next log now) : History m (x :: log) now

variable {m next now : FileTypeModule σ} {x : Exchange σ} {log before later : List (Exchange σ)}

/-- What one call keeps, and when it leaves the module prepared. -/
theorem Answers.keeps (h : Answers m x next) :
    next.config = m.config ∧ next.preset = m.preset ∧
      next.isInitialized = x.leaves m.isInitialized := by
  cases h with
  | prepared hp =>
    obtain ⟨matcher, -, rfl⟩ := prepare_of_ok hp
    exact ⟨rfl, rfl, rfl⟩
  | notPrepared hp hs =>
    obtain rfl := prepare_of_ne_ok hp hs
    exact ⟨rfl, rfl, rfl⟩
  | ran file world => exact ⟨rfl, rfl, rfl⟩
  | finalized world => exact ⟨rfl, rfl, isInitialized_finalize m world⟩

/-- What any calls keep, and when they leave the module prepared. -/
theorem History.keeps (h : History m log now) :
    now.config = m.config ∧ now.preset = m.preset ∧
      now.isInitialized = readyAfter m.isInitialized log := by
  induction h with
  | nil m => exact ⟨rfl, rfl, rfl⟩
  | cons hx _ ih =>
    obtain ⟨hconfig, hpreset, hready⟩ := hx.keeps
    obtain ⟨hconfig', hpreset', hready'⟩ := ih
    refine ⟨hconfig'.trans hconfig, hpreset'.trans hpreset, ?_⟩
    rw [hready', hready]
    rfl

theorem History.split (h : History m (before ++ later) now) :
    ∃ middle, History m before middle ∧ History middle later now := by
  induction before generalizing m with
  | nil => exact ⟨m, .nil m, h⟩
  | cons first before ih =>
    cases h with
    | cons hx hrest =>
      obtain ⟨middle, hbefore, hlater⟩ := ih hrest
      exact ⟨middle, .cons hx hbefore, hlater⟩

/-- A module without a matcher gets one only by a preparation that succeeds. -/
theorem History.unprepared (h : History m log now) (hm : m.matcher = none)
    (hlog : ∀ y ∈ log, ¬ y.IsPrepared) : now.matcher = none := by
  obtain ⟨-, -, hready⟩ := h.keeps
  have hfalse : m.isInitialized = false := by rw [isInitialized, hm, Option.isSome_none]
  rw [hfalse, readyAfter_false hlog] at hready
  simpa [isInitialized] using hready

/-! ## The life of a module -/

/-- **A module is prepared exactly if the last thing done to it, runs apart, was a preparation that
succeeded,** or if it was made with a matcher and nothing was done to it. What a preparation takes does
not depend on what came before. While the module is not prepared, runs fail and touch nothing. -/
theorem history_prepared {config : ModuleConfig} {preset : Option (Matcher σ)}
    (h : History (made config preset) log now) :
    (now.isInitialized = true ↔
      (∃ before x later, log = before ++ x :: later ∧ x.IsPrepared ∧ ∀ y ∈ later, y.IsRun) ∨
        (∀ y ∈ log, y.IsRun) ∧ preset.isSome = true) ∧
    (∀ (arguments : String) (world : σ), (now.prepare arguments world).value.1 = .ok ↔
      config.validate = .ok () ∧
        (databaseArgument? arguments = none ∧ preset.isSome = true ∨
          ∃ path matcher, (databaseArgument? arguments).or config.databasePath? = some path ∧
            DatabaseLoader.load path world = .ok matcher)) ∧
    -- Which matcher is in use after a preparation.
    (∀ (arguments : String) (world : σ) (next : FileTypeModule σ),
      (now.prepare arguments world).value = (.ok, next) →
      if databaseArgument? arguments = none ∧ preset.isSome = true then next.matcher = preset
      else ∃ path matcher, (databaseArgument? arguments).or config.databasePath? = some path ∧
        DatabaseLoader.load path world = .ok matcher ∧ next.matcher = some matcher) ∧
    -- After a preparation that failed, or a finalization, no file is touched.
    (∀ (before : List (Exchange σ)) (x : Exchange σ) (later : List (Exchange σ)),
      log = before ++ x :: later → x.IsUnprepared → (∀ y ∈ later, ¬ y.IsPrepared) →
      ∀ (file : HostFile σ) (world : σ), (now.run file world).value = .returned .fail ∧
        (now.run file world).world = world ∧ now.callsOf file world = []) ∧
    -- After a permanent error no file succeeds.
    (∀ (before : List (Exchange σ)) (failed : HostFile σ) (e : ModuleError)
      (later : List (Exchange σ)), log = before ++ .ran failed (.returned (.error e)) :: later →
      e.isPermanent = true → (∀ y ∈ later, ¬ y.IsPrepared) →
      ∀ (file : HostFile σ) (world : σ), (now.run file world).value = .returned .fail) := by
  obtain ⟨hconfig, hpreset, hready⟩ := h.keeps
  have hmade : (made config preset).config = config ∧ (made config preset).preset = preset ∧
      (made config preset).isInitialized = preset.isSome := by
    cases preset <;> exact ⟨rfl, rfl, rfl⟩
  obtain ⟨hmade, hmade', hstart⟩ := hmade
  rw [hmade] at hconfig
  rw [hmade'] at hpreset
  refine ⟨?_, ?_, ?_, ?_, ?_⟩
  · rw [hready, hstart]
    exact readyAfter_iff
  · intro arguments world
    rw [prepare_eq_ok_iff, exists_chooses_iff, hconfig, hpreset]
  · intro arguments world next hprepare
    obtain ⟨matcher, hchooses, rfl⟩ := prepare_of_ok hprepare
    have hspec := hchooses.spec
    rw [hconfig, hpreset] at hspec
    split at hspec
    · rename_i hcase
      rw [if_pos hcase]
      exact hspec.symm
    · rename_i hcase
      rw [if_neg hcase]
      obtain ⟨path, hpath, hl⟩ := hspec
      exact ⟨path, matcher, hpath, hl, rfl⟩
  · rintro before x later rfl hx hlater file world
    obtain ⟨middle, -, hrest⟩ := h.split
    cases hrest with
    | cons hanswers hrest =>
      refine run_of_unprepared (hrest.unprepared ?_ hlater)
      cases hanswers with
      | notPrepared hp hs =>
        obtain rfl := prepare_of_ne_ok hp hs
        rfl
      | finalized => rfl
      | prepared => exact hx.elim
      | ran => exact hx.elim
  · rintro before failed e later rfl he hlater file world
    obtain ⟨middle, -, hrest⟩ := h.split
    cases hrest with
    | cons hanswers hrest =>
      -- The error says that there was no matcher; the run has left it so.
      generalize hx : Exchange.ran failed (.returned (.error e)) = x at hanswers
      cases hanswers with
      | ran file' world' =>
        obtain ⟨rfl, herror⟩ := Exchange.ran.inj hx
        have hnone := matcher_eq_none_of_isPermanent herror.symm he
        exact (run_of_unprepared (hrest.unprepared hnone hlater)).1
      | prepared => cases hx
      | notPrepared => cases hx
      | finalized => cases hx

end Histories

open Host (MemoryFile Session) in
/-- A module that was made with a matcher is asked for a database that does not exist, and then to look at
an empty file. Preparing it once more would succeed. -/
theorem history_prepared_refused :
    ∃ (preset : Matcher Session) (empty : HostFile Session) (now : FileTypeModule Session),
      empty.size = 0 ∧
      History (made {} (some preset))
        [.notPrepared "database=m.mgc", .ran empty (.returned (.error .notInitialized))] now ∧
      now.isInitialized = false ∧ (now.prepare "" {}).value.1 = .ok ∧
      (∀ (file : HostFile Session) (world : Session), (now.run file world).value = .returned .fail ∧
        (now.run file world).world = world ∧ now.callsOf file world = []) := by
  let session : Session := {}
  let preset := session.scripted 0
  let empty : HostFile Session := MemoryFile.toHostFile { id := ⟨7⟩, content := [] }
  let now : FileTypeModule Session := { made {} (some preset) with matcher := none }
  have hprepare : ((made {} (some preset)).prepare "database=m.mgc" session).value = (.fail, now) := rfl
  have hrun : Answers now (.ran empty (.returned (.error .notInitialized))) now := .ran empty session
  have hhistory : History (made {} (some preset))
      [.notPrepared "database=m.mgc", .ran empty (.returned (.error .notInitialized))] now :=
    .cons (.notPrepared hprepare (by decide)) (.cons hrun (.nil now))
  obtain ⟨hready, hprepared, -, huntouched, -⟩ := history_prepared hhistory
  refine ⟨preset, empty, now, rfl, hhistory, rfl, ?_, ?_⟩
  · exact (hprepared "" session).2 ⟨rfl, .inl ⟨by decide, rfl⟩⟩
  · intro file world
    exact huntouched [] _ _ rfl trivial (by simp [Exchange.IsPrepared]) file world

end FileTypeModule

end Hallmark
