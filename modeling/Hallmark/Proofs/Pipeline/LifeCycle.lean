import Mathlib.Data.List.Forall2
import Hallmark.Host.Session
import Hallmark.Module.FileType
import Hallmark.Proofs.Pipeline.Run

/-!
# `Hallmark/Proofs/Pipeline/LifeCycle.lean` — how modules are prepared and finalized

A builder takes modules and settings in any order. Modules and arguments go into two lists, which have one
length and agree place by place (`Aligned`) after any requests to the builder, and after any to its pipeline.
So the pipeline asks the modules in the order in which they were added, each with its own arguments: preparing
stops after the first that fails, finalizing asks all of them. The requests to a pipeline happen in worlds of
their own, since files come and go between them. Main statement: `asks_in_order`.
-/

set_option autoImplicit false

namespace Hallmark

namespace Pipeline

open Audit (Event)

variable {μ σ : Type}

/-! ## Two lists side by side -/

/-- The lists hold, place by place, the modules and the arguments of some pairs. -/
structure Aligned (pairs : List (μ × String)) (modules : List μ) (arguments : List String) : Prop where
  modules : modules = pairs.map Prod.fst
  arguments : arguments = pairs.map Prod.snd

namespace Aligned

variable {pairs : List (μ × String)} {modules : List μ} {arguments : List String}

theorem length_eq (h : Aligned pairs modules arguments) : arguments.length = modules.length := by
  rw [h.modules, h.arguments, List.length_map, List.length_map]

/-- Going through the lists side by side comes to each pair. -/
theorem zip_eq (h : Aligned pairs modules arguments) : modules.zip arguments = pairs := by
  rw [h.modules, h.arguments]
  exact (List.zip_of_prod rfl rfl).symm

theorem concat (h : Aligned pairs modules arguments) (module : μ) (text : String) :
    Aligned (pairs ++ [(module, text)]) (modules ++ [module]) (arguments ++ [text]) := by
  constructor
  · rw [h.modules, List.map_append, List.map_singleton]
  · rw [h.arguments, List.map_append, List.map_singleton]

end Aligned

/-! ## Building -/

namespace Builder

/-- What a builder is asked to do. -/
inductive Request (μ : Type) where
  | add (module : μ)
  | addWith (module : μ) (arguments : String)
  | configure (stopsOnFailure : Bool)

namespace Request

/-- The module that a request adds, with its arguments. -/
def added? : Request μ → Option (μ × String)
  | add module => some (module, "")
  | addWith module arguments => some (module, arguments)
  | configure _ => none

def stopsOnFailure? : Request μ → Option Bool
  | configure stopsOnFailure => some stopsOnFailure
  | add _ | addWith _ _ => none

end Request

def perform (builder : Builder μ) : Request μ → Builder μ
  | .add module => builder.add module
  | .addWith module arguments => builder.add module arguments
  | .configure stopsOnFailure => builder.configure stopsOnFailure

/-- The builder after some requests. -/
def ofRequests (requests : List (Request μ)) : Builder μ := requests.foldl perform {}

/-- A request that adds a module adds to both lists. -/
theorem aligned_perform {builder : Builder μ} {pairs : List (μ × String)}
    (h : Aligned pairs builder.modules builder.arguments) (request : Request μ) :
    Aligned (pairs ++ request.added?.toList) (builder.perform request).modules
      (builder.perform request).arguments := by
  cases request with
  | add module => exact h.concat module ""
  | addWith module arguments => exact h.concat module arguments
  | configure stopsOnFailure =>
    rw [Request.added?, Option.toList_none, List.append_nil]
    exact h

theorem aligned_foldl_perform {builder : Builder μ} {pairs : List (μ × String)}
    (h : Aligned pairs builder.modules builder.arguments) (requests : List (Request μ)) :
    Aligned (pairs ++ requests.filterMap Request.added?) (requests.foldl perform builder).modules
      (requests.foldl perform builder).arguments := by
  induction requests generalizing builder pairs with
  | nil => simpa using h
  | cons request rest ih =>
    have hrest := ih (aligned_perform h request)
    rw [List.foldl_cons, List.filterMap_cons]
    cases hadded : request.added? with
    | none => simpa [hadded] using hrest
    | some pair => simpa [hadded] using hrest

/-- **Modules and arguments are in the order in which they were added, side by side.** -/
theorem aligned_ofRequests (requests : List (Request μ)) :
    Aligned (requests.filterMap Request.added?) (ofRequests requests).modules
      (ofRequests requests).arguments := by
  have hstart : Aligned [] ({} : Builder μ).modules ({} : Builder μ).arguments := ⟨rfl, rfl⟩
  exact aligned_foldl_perform hstart requests

theorem stopsOnFailure_foldl_perform (builder : Builder μ) (requests : List (Request μ)) :
    (requests.foldl perform builder).stopsOnFailure =
      (requests.filterMap Request.stopsOnFailure?).getLast?.getD builder.stopsOnFailure := by
  induction requests generalizing builder with
  | nil => rfl
  | cons request rest ih =>
    rw [List.foldl_cons, ih, List.filterMap_cons]
    cases request <;> simp [perform, add, configure, Request.stopsOnFailure?, List.getLast?_cons]

/-- The settings are those given last. -/
theorem stopsOnFailure_ofRequests (requests : List (Request μ)) :
    (ofRequests requests).stopsOnFailure =
      (requests.filterMap Request.stopsOnFailure?).getLast?.getD false :=
  stopsOnFailure_foldl_perform {} requests

theorem build_eq_ok_iff {builder : Builder μ} {pipeline : Pipeline μ} :
    builder.build = .ok pipeline ↔ builder.modules = pipeline.modules ∧
      builder.arguments = pipeline.arguments ∧ builder.stopsOnFailure = pipeline.stopsOnFailure := by
  obtain ⟨modules, arguments, stopsOnFailure, hne⟩ := pipeline
  constructor
  · intro h
    rw [build] at h
    split at h
    · cases h
    · cases h
      exact ⟨rfl, rfl, rfl⟩
  · rintro ⟨rfl, rfl, rfl⟩
    rw [build, dif_neg hne]

end Builder

/-! ## Asking modules in order -/

/-- What a module answered to a call. -/
structure Answer (μ : Type) where
  /-- The module before the call, with its arguments. -/
  asked : μ × String
  status : Status
  /-- The module after the call. -/
  module : μ
  /-- What the module itself logged. -/
  events : List Event

/-- The module in its place after the call. -/
def Answer.kept (a : Answer μ) : μ × String := (a.module, a.asked.2)

/-- The answer of a module to a call. -/
def answer (call : μ × String → Action σ (Status × μ)) (pair : μ × String) (world : σ) : Answer μ :=
  let outcome := call pair world
  { asked := pair
    status := outcome.value.1
    module := outcome.value.2
    events := outcome.events }

/-- Modules are asked one after the other, each once and in the world that the one before it left. -/
inductive Asks (call : μ × String → Action σ (Status × μ)) : σ → List (Answer μ) → σ → Prop
  | done (world : σ) : Asks call world [] world
  | next {world after : σ} {pair : μ × String} {later : List (Answer μ)}
      (h : Asks call (call pair world).world later after) :
      Asks call world (answer call pair world :: later) after

variable [PipelineModule μ σ]

/-- What a pipeline asks of a module that it prepares. -/
def preparing (pair : μ × String) : Action σ (Status × μ) := PipelineModule.prepare pair.1 pair.2

/-- What a pipeline asks of a module that it finalizes. -/
def finalizing (pair : μ × String) : Action σ (Status × μ) := PipelineModule.finalize pair.1

namespace Answer

def name (a : Answer μ) : String := PipelineModule.name a.module

/-- What is logged of a module that was prepared. -/
def prepared (a : Answer μ) : List Event :=
  a.events ++ [.moduleStarted a.name (PipelineModule.info a.module).version a.status]

/-- What is logged of a module that was finalized. -/
def finalized (a : Answer μ) : List Event :=
  a.events ++ if a.status = .fail then [.finalizeFailed a.name] else []

end Answer

/-- The outcome of preparing: the modules that were asked, those that are left, and the result. The first
that fails is the last that is asked. -/
inductive Settles : List (Answer μ) → List (μ × String) → Except ModuleError Unit → Prop
  | prepared {asked : List (Answer μ)} (h : ∀ a ∈ asked, a.status ≠ .fail) : Settles asked [] (.ok ())
  | failed {before : List (Answer μ)} {last : Answer μ} {rest : List (μ × String)}
      (h : ∀ a ∈ before, a.status ≠ .fail) (hlast : last.status = .fail) :
      Settles (before ++ [last]) rest
        (.error (.configuration ("module " ++ last.name ++ " failed to initialize")))

theorem Settles.cons {asked : List (Answer μ)} {rest : List (μ × String)}
    {result : Except ModuleError Unit} {a : Answer μ} (h : Settles asked rest result)
    (ha : a.status ≠ .fail) : Settles (a :: asked) rest result := by
  cases h with
  | prepared hasked => exact .prepared (List.forall_mem_cons.2 ⟨ha, hasked⟩)
  | @failed before last _ hbefore hlast =>
    rw [← List.cons_append]
    exact .failed (List.forall_mem_cons.2 ⟨ha, hbefore⟩) hlast

theorem Settles.eq_ok_iff {asked : List (Answer μ)} {rest : List (μ × String)}
    {result : Except ModuleError Unit} (h : Settles asked rest result) :
    result = .ok () ↔ ∀ a ∈ asked, a.status ≠ .fail := by
  cases h with
  | prepared hasked => exact ⟨fun _ => hasked, fun _ => rfl⟩
  | failed hbefore hlast =>
    constructor
    · intro hresult
      cases hresult
    · intro hasked
      exact absurd hlast (hasked _ (by simp))

/-- Whatever the modules answer, a first part of them is prepared. -/
theorem exists_prepareAll (pairs : List (μ × String)) (world : σ) :
    ∃ (asked : List (Answer μ)) (rest : List (μ × String)) (after : σ)
      (result : Except ModuleError Unit),
      pairs = asked.map Answer.asked ++ rest ∧ Asks preparing world asked after ∧
      Settles asked rest result ∧
      prepareAll pairs world =
        ⟨(result, (asked.map Answer.kept ++ rest).map Prod.fst), after,
          asked.flatMap Answer.prepared⟩ := by
  induction pairs generalizing world with
  | nil => exact ⟨[], [], world, .ok (), rfl, .done world, .prepared (by simp), rfl⟩
  | cons pair pairs ih =>
    obtain ⟨module, arguments⟩ := pair
    have hstatus : (answer preparing (module, arguments) world).status =
      (PipelineModule.prepare module arguments world).value.1 := rfl
    by_cases hfail : (answer preparing (module, arguments) world).status = .fail
    -- The modules after one that fails are those that are left.
    · refine ⟨[answer preparing (module, arguments) world], pairs, _, _, rfl, .next (.done _),
        .failed (List.forall_mem_nil _) hfail, ?_⟩
      rw [hstatus] at hfail
      simp [prepareAll, hfail, answer, preparing, Answer.kept, Answer.prepared, Answer.name]
    · obtain ⟨asked, rest, after, result, hpairs, hasks, hsettles, heq⟩ :=
        ih (PipelineModule.prepare module arguments world).world
      refine ⟨answer preparing (module, arguments) world :: asked, rest, after, result, ?_, .next hasks,
        hsettles.cons hfail, ?_⟩
      · rw [hpairs]
        rfl
      · rw [hstatus] at hfail
        simp [prepareAll, hfail, heq, answer, preparing, Answer.kept, Answer.prepared, Answer.name]

/-- All modules are finalized. -/
theorem exists_finalizeAll (pairs : List (μ × String)) (world : σ) :
    ∃ (asked : List (Answer μ)) (after : σ),
      pairs = asked.map Answer.asked ∧ Asks finalizing world asked after ∧
      finalizeAll (pairs.map Prod.fst) world =
        ⟨(asked.map Answer.status, (asked.map Answer.kept).map Prod.fst), after,
          asked.flatMap Answer.finalized⟩ := by
  induction pairs generalizing world with
  | nil => exact ⟨[], world, rfl, .done world, rfl⟩
  | cons pair pairs ih =>
    obtain ⟨asked, after, hpairs, hasks, heq⟩ := ih (PipelineModule.finalize pair.1 world).world
    refine ⟨answer finalizing pair world :: asked, after, ?_, .next hasks, ?_⟩
    · rw [hpairs]
      rfl
    · simp [finalizeAll, heq, answer, finalizing, Answer.kept, Answer.finalized, Answer.name]

/-- What preparing a pipeline does: a first part of the modules is asked, each with its own arguments. -/
structure PreparesInOrder (pipeline : Pipeline μ) (world : σ) (asked : List (Answer μ))
    (rest : List (μ × String)) : Prop where
  aligned : Aligned (asked.map Answer.asked ++ rest) pipeline.modules pipeline.arguments
  asks : Asks preparing world asked (pipeline.prepare world).world
  settles : Settles asked rest (pipeline.prepare world).value.1
  isOk_iff : (pipeline.prepare world).value.1 = .ok () ↔ ∀ a ∈ asked, a.status ≠ .fail
  kept : Aligned (asked.map Answer.kept ++ rest) (pipeline.prepare world).value.2.modules
    (pipeline.prepare world).value.2.arguments
  events : (pipeline.prepare world).events = asked.flatMap Answer.prepared

/-- The place of a module after a call has its arguments. -/
theorem snd_kept (asked : List (Answer μ)) :
    (asked.map Answer.kept).map Prod.snd = (asked.map Answer.asked).map Prod.snd := by
  rw [List.map_map, List.map_map]
  rfl

theorem exists_preparesInOrder {pipeline : Pipeline μ} {pairs : List (μ × String)}
    (h : Aligned pairs pipeline.modules pipeline.arguments) (world : σ) :
    ∃ asked rest, PreparesInOrder pipeline world asked rest := by
  obtain ⟨asked, rest, after, result, rfl, hasks, hsettles, heq⟩ := exists_prepareAll pairs world
  -- No module is left over when the two lists are gone through side by side.
  have hdrop : pipeline.modules.drop (asked.map Answer.asked ++ rest).length = [] := by
    rw [h.modules]
    exact List.drop_eq_nil_of_le (Nat.le_of_eq (List.length_map Prod.fst))
  refine ⟨asked, rest, ?_⟩
  constructor
  · exact h
  · simpa only [prepare, h.zip_eq, heq] using hasks
  · simpa only [prepare, h.zip_eq, heq] using hsettles
  · simpa only [prepare, h.zip_eq, heq] using hsettles.eq_ok_iff
  · constructor
    · simp only [prepare, h.zip_eq, heq, hdrop, List.append_nil]
    · rw [List.map_append, snd_kept, ← List.map_append]
      exact h.arguments
  · simp only [prepare, h.zip_eq, heq]

/-- What finalizing a pipeline does: all modules are asked, and the worst status is the answer. -/
structure FinalizesInOrder (pipeline : Pipeline μ) (world : σ) (asked : List (Answer μ)) : Prop where
  aligned : Aligned (asked.map Answer.asked) pipeline.modules pipeline.arguments
  asks : Asks finalizing world asked (pipeline.finalize world).world
  le_status : ∀ a ∈ asked, a.status ≤ (pipeline.finalize world).value.1
  status_mem : ∃ a ∈ asked, a.status = (pipeline.finalize world).value.1
  kept : Aligned (asked.map Answer.kept) (pipeline.finalize world).value.2.modules
    (pipeline.finalize world).value.2.arguments
  events : (pipeline.finalize world).events = asked.flatMap Answer.finalized

theorem exists_finalizesInOrder {pipeline : Pipeline μ} {pairs : List (μ × String)}
    (h : Aligned pairs pipeline.modules pipeline.arguments) (world : σ) :
    ∃ asked, FinalizesInOrder pipeline world asked := by
  obtain ⟨asked, after, rfl, hasks, heq⟩ := exists_finalizeAll pairs world
  rw [← h.modules] at heq
  have hne : asked.map Answer.status ≠ [] := by
    have hmodules := pipeline.nonempty
    rw [h.modules] at hmodules
    simpa using hmodules
  have hworst : (pipeline.finalize world).value.1 = Status.worst (asked.map Answer.status) := by
    simp only [finalize, heq]
  refine ⟨asked, ?_⟩
  constructor
  · exact h
  · simpa only [finalize, heq] using hasks
  · intro a ha
    rw [hworst]
    exact Status.le_foldl_max (.inr (List.mem_map_of_mem ha))
  · rw [hworst]
    exact List.mem_map.1 (Status.worst_mem hne)
  · constructor
    · simp only [finalize, heq]
    · rw [snd_kept]
      exact h.arguments
  · simp only [finalize, heq]

/-! ## What requests keep -/

/-- What a module becomes when it is prepared, always with the same arguments, and finalized. -/
inductive Becomes (arguments : String) : μ → μ → Prop
  | same (m : μ) : Becomes arguments m m
  | prepared {m next : μ} (world : σ)
      (h : Becomes arguments (PipelineModule.prepare m arguments world).value.2 next) :
      Becomes arguments m next
  | finalized {m next : μ} (world : σ)
      (h : Becomes arguments (PipelineModule.finalize m world).value.2 next) : Becomes arguments m next

theorem Becomes.trans {arguments : String} {a b c : μ} (hab : Becomes arguments a b)
    (hbc : Becomes arguments b c) : Becomes arguments a c := by
  induction hab with
  | same => exact hbc
  | prepared world _ ih => exact .prepared world (ih hbc)
  | finalized world _ ih => exact .finalized world (ih hbc)

/-- A module in its place with its arguments, as it was added and as it is later. -/
structure Follows (first later : μ × String) : Prop where
  arguments : later.2 = first.2
  module : Becomes first.2 first.1 later.1

theorem Follows.refl (pair : μ × String) : Follows pair pair := ⟨rfl, .same pair.1⟩

theorem Follows.trans {a b c : μ × String} (hab : Follows a b) (hbc : Follows b c) : Follows a c := by
  refine ⟨hbc.arguments.trans hab.arguments, hab.module.trans ?_⟩
  rw [← hab.arguments]
  exact hbc.module

/-- Modules in their places, as they were added and as they are later. -/
abbrev AllFollow (first later : List (μ × String)) : Prop := List.Forall₂ Follows first later

namespace AllFollow

variable {first next last : List (μ × String)}

theorem refl (pairs : List (μ × String)) : AllFollow pairs pairs :=
  List.forall₂_same.2 fun pair _ => Follows.refl pair

theorem trans (h : AllFollow first next) (h' : AllFollow next last) : AllFollow first last := by
  induction h generalizing last with
  | nil => exact h'
  | cons hpair _ ih =>
    cases h' with
    | cons hpair' hrest => exact .cons (hpair.trans hpair') (ih hrest)

theorem arguments_eq (h : AllFollow first last) : last.map Prod.snd = first.map Prod.snd := by
  induction h with
  | nil => rfl
  | cons hpair _ ih => rw [List.map_cons, List.map_cons, ih, hpair.arguments]

end AllFollow

/-- Modules that are asked stay in their places, and so do those that are not. -/
theorem Asks.allFollow {call : μ × String → Action σ (Status × μ)} {asked : List (Answer μ)}
    {world last : σ} (h : Asks call world asked last)
    (hcall : ∀ pair world, Becomes pair.2 pair.1 (call pair world).value.2)
    (rest : List (μ × String)) :
    AllFollow (asked.map Answer.asked ++ rest) (asked.map Answer.kept ++ rest) := by
  induction h with
  | done => exact .refl rest
  | @next world last pair later h ih => exact .cons ⟨rfl, hcall pair world⟩ ih

/-- What is asked of a pipeline. -/
inductive Request (σ : Type) where
  | prepare (world : σ)
  | run (file : HostFile σ) (world : σ)
  | finalize (world : σ)

/-- The pipeline after a request. Running does not change it. -/
def after (pipeline : Pipeline μ) : Request σ → Pipeline μ
  | .prepare world => (pipeline.prepare world).value.2
  | .run _ _ => pipeline
  | .finalize world => (pipeline.finalize world).value.2

variable {pipeline : Pipeline μ} {pairs : List (μ × String)}

theorem stopsOnFailure_after (pipeline : Pipeline μ) (request : Request σ) :
    (pipeline.after request).stopsOnFailure = pipeline.stopsOnFailure := by
  cases request <;> rfl

/-- A request leaves the lists aligned and the modules in their places. -/
theorem exists_aligned_after (h : Aligned pairs pipeline.modules pipeline.arguments)
    (request : Request σ) :
    ∃ next, Aligned next (pipeline.after request).modules (pipeline.after request).arguments ∧
      AllFollow pairs next := by
  cases request with
  | run file world => exact ⟨pairs, h, .refl pairs⟩
  | prepare world =>
    obtain ⟨asked, rest, hp⟩ := exists_preparesInOrder h world
    obtain rfl : asked.map Answer.asked ++ rest = pairs := by rw [← hp.aligned.zip_eq, h.zip_eq]
    exact ⟨_, hp.kept, hp.asks.allFollow (fun pair world => .prepared world (.same _)) rest⟩
  | finalize world =>
    obtain ⟨asked, hf⟩ := exists_finalizesInOrder h world
    obtain rfl : asked.map Answer.asked = pairs := by rw [← hf.aligned.zip_eq, h.zip_eq]
    refine ⟨_, hf.kept, ?_⟩
    simpa using hf.asks.allFollow (fun pair world => .finalized world (.same _)) []

/-- Any requests leave the lists aligned and the modules in their places, and the settings as they are. -/
theorem keeps_requests (h : Aligned pairs pipeline.modules pipeline.arguments)
    (requests : List (Request σ)) :
    (requests.foldl after pipeline).stopsOnFailure = pipeline.stopsOnFailure ∧
      ∃ now, Aligned now (requests.foldl after pipeline).modules
        (requests.foldl after pipeline).arguments ∧ AllFollow pairs now := by
  induction requests generalizing pipeline pairs with
  | nil => exact ⟨rfl, pairs, h, .refl pairs⟩
  | cons request rest ih =>
    obtain ⟨next, hnext, hfollow⟩ := exists_aligned_after h request
    obtain ⟨hstops, now, hnow, hfollow'⟩ := ih hnext
    rw [stopsOnFailure_after] at hstops
    exact ⟨hstops, now, hnow, hfollow.trans hfollow'⟩

/-! ## The life of a pipeline -/

/-- **A pipeline asks its modules in the order in which they were added,** whatever was asked before:
preparing gives each the arguments that it was added with, and stops after the first that fails;
finalizing asks all, and answers with the worst status. -/
theorem asks_in_order {added : List (Builder.Request μ)}
    (h : (Builder.ofRequests added).build = .ok pipeline) (requests : List (Request σ)) :
    let registered := added.filterMap Builder.Request.added?
    let later := requests.foldl after pipeline
    -- The two lists have one length, and have side by side what was added, in that order.
    later.arguments.length = later.modules.length ∧
    AllFollow registered (later.modules.zip later.arguments) ∧
    later.arguments = registered.map Prod.snd ∧
    later.stopsOnFailure =
      (added.filterMap Builder.Request.stopsOnFailure?).getLast?.getD false ∧
    ∀ world : σ,
      (∃ asked rest, PreparesInOrder later world asked rest) ∧
      ∃ asked, FinalizesInOrder later world asked := by
  intro registered later
  obtain ⟨hmodules, harguments, hstops⟩ := Builder.build_eq_ok_iff.1 h
  have haligned : Aligned registered pipeline.modules pipeline.arguments := by
    rw [← hmodules, ← harguments]
    exact Builder.aligned_ofRequests added
  obtain ⟨hstops', now, hnow, hfollow⟩ := keeps_requests haligned requests
  refine ⟨hnow.length_eq, ?_, ?_, ?_, fun world =>
    ⟨exists_preparesInOrder hnow world, exists_finalizesInOrder hnow world⟩⟩
  · rwa [hnow.zip_eq]
  · rw [hnow.arguments, hfollow.arguments_eq]
  · rw [hstops', ← hstops, Builder.stopsOnFailure_ofRequests]

open Host (Session) in
/-- The second of three modules is asked for a database that does not exist, after all were finalized. -/
theorem asks_in_order_refused :
    ∃ (preset : Matcher Session) (pipeline : Pipeline (FittingModule Session)),
      (Builder.ofRequests [.configure true, .add { preset := preset, matcher := preset },
        .addWith {} "database=m.mgc", .add {}]).build = .ok pipeline ∧
      (pipeline.after (.finalize {})).arguments = ["", "database=m.mgc", ""] ∧
      (pipeline.after (.finalize {})).stopsOnFailure = true ∧
      (∃ asked rest, PreparesInOrder (pipeline.after (.finalize {})) {} asked rest) ∧
      ((pipeline.after (.finalize {})).prepare {}).value.1 =
        .error (.configuration "module FileTypeSigModule failed to initialize") := by
  let session : Session := {}
  let preset := session.scripted 0
  let pipeline : Pipeline (FittingModule Session) :=
    { modules := [{ preset := preset, matcher := preset }, {}, {}]
      arguments := ["", "database=m.mgc", ""]
      stopsOnFailure := true
      nonempty := by simp }
  have hbuild : (Builder.ofRequests [.configure true, .add { preset := preset, matcher := preset },
      .addWith {} "database=m.mgc", .add {}]).build = .ok pipeline := rfl
  obtain ⟨-, -, harguments, hstops, hasks⟩ := asks_in_order hbuild [.finalize session]
  exact ⟨preset, pipeline, hbuild, harguments, hstops, (hasks session).1, rfl⟩

end Pipeline

end Hallmark
