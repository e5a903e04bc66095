import Mathlib.Data.Finset.Card
import Hallmark.Proofs.Blackboard.Folder

/-!
# `Hallmark/Proofs/Blackboard/Ledger.lean` — what a blackboard shows

A ledger lists the posts that a blackboard took. All that a blackboard shows can be read off it: a file
that nothing was posted about has no artifact, any other file has one, with the identifier of the first
post about it and the facts of all posts about it, in their order. An index in memory and one that is
kept in a folder both show just that. Main statement: `reflects_ledger`.
-/

set_option autoImplicit false

namespace Hallmark.Blackboard

/-! ## Ledgers -/

/-- A fact about a file, and the identifier that an artifact made for it gets. -/
structure Posting where
  freshId : String
  file : FileId
  fact : Attribute
deriving DecidableEq, Repr

/-- Posts in the order in which they were taken. -/
abbrev Ledger := List Posting

namespace Ledger

variable (ledger : Ledger) (file : FileId)

def about : List Posting := ledger.filter fun p => p.file = file

/-- The facts about a file, in the order of their posts. -/
def facts : List Attribute := (ledger.about file).map Posting.fact

/-- The artifact of a file, which has the identifier of the first post about it. -/
def artifact? : Option Artifact :=
  (ledger.about file).head?.map fun first =>
    { id := first.freshId, file := file, type := .generalInfo, attributes := ledger.facts file }

/-- The files that something was posted about. -/
def files : Finset FileId := (ledger.map Posting.file).toFinset

variable {ledger file}

theorem mem_files_iff : file ∈ ledger.files ↔ (ledger.artifact? file).isSome := by
  simp [files, artifact?, about, List.head?_filter, List.find?_isSome]

theorem about_concat (p : Posting) :
    about (ledger ++ [p]) file =
      if p.file = file then ledger.about file ++ [p] else ledger.about file := by
  by_cases h : p.file = file <;> simp [about, h]

/-- One more post makes the artifact of its file or adds to it, and changes no other. -/
theorem artifact?_concat (p : Posting) :
    artifact? (ledger ++ [p]) file =
      if p.file = file then
        some (((ledger.artifact? file).map fun artifact =>
          { artifact with attributes := artifact.attributes ++ [p.fact] }).getD
            { id := p.freshId, file := file, attributes := [p.fact] })
      else ledger.artifact? file := by
  by_cases h : p.file = file
  · rw [if_pos h, artifact?, artifact?, facts, facts, about_concat, if_pos h]
    cases ledger.about file <;> simp
  · rw [if_neg h, artifact?, artifact?, facts, facts, about_concat, if_neg h]

end Ledger

/-! ## What an index shows -/

namespace Index

/-- The index has an entry for each file of a ledger: its one artifact. -/
def Holds (index : Index) (ledger : Ledger) : Prop :=
  ∀ file, index.get? file = (ledger.artifact? file).map fun artifact => [artifact]

/-- What the index shows is what a ledger says. -/
structure Reflects (index : Index) (ledger : Ledger) : Prop where
  artifacts : ∀ file, index.artifacts file = (ledger.artifact? file).toList
  attributes : ∀ file type,
    attributesOf type (index.artifacts file) = (ledger.facts file).filter fun fact => fact.type = type
  size : index.size = ledger.files.card

variable {index : Index} {ledger : Ledger}

theorem holds_empty : Holds {} [] := fun _ => rfl

theorem Holds.artifacts (h : index.Holds ledger) (file : FileId) :
    index.artifacts file = (ledger.artifact? file).toList := by
  rw [Index.artifacts, h file]
  cases ledger.artifact? file <;> rfl

/-- A post to the index is a post to the ledger. -/
theorem Holds.post (h : index.Holds ledger) (p : Posting) :
    (index.post p.freshId p.file p.fact).Holds (ledger ++ [p]) := by
  intro file
  rw [Index.post, Table.get?_insert, Ledger.artifact?_concat]
  by_cases hf : file = p.file
  · subst hf
    rw [if_pos rfl, if_pos rfl, h.artifacts]
    cases ledger.artifact? p.file with
    | none => rfl
    | some artifact =>
      -- There is but one kind of artifact, so the facts go to the first.
      cases htype : artifact.type
      simp [appendGeneral, htype]
  · rw [if_neg hf, if_neg (Ne.symm hf), h file]

theorem Holds.reflects (h : index.Holds ledger) : index.Reflects ledger where
  artifacts := h.artifacts
  attributes := by
    intro file type
    rw [h.artifacts, attributesOf, Ledger.artifact?, Ledger.facts]
    cases ledger.about file <;> simp
  size := by
    have hkeys : index.keys.toFinset = ledger.files := by
      ext file
      rw [List.mem_toFinset, Table.mem_keys_iff, h file, Ledger.mem_files_iff, Option.isSome_map]
    calc index.size = index.keys.length := (List.length_map _).symm
      _ = index.keys.toFinset.card := (List.toFinset_card_of_nodup index.distinct).symm
      _ = ledger.files.card := by rw [hkeys]

end Index

/-! ## Runs in memory -/

/-- What is done to an index in memory. -/
inductive Operation where
  | post (posting : Posting)
  | clear
deriving DecidableEq, Repr

def Index.perform (index : Index) : Operation → Index
  | .post p => index.post p.freshId p.file p.fact
  | .clear => index.clear

def Ledger.perform (ledger : Ledger) : Operation → Ledger
  | .post p => ledger ++ [p]
  | .clear => []

theorem Index.Holds.perform {index : Index} {ledger : Ledger} (h : index.Holds ledger)
    (operation : Operation) : (index.perform operation).Holds (ledger.perform operation) := by
  cases operation with
  | post p => exact h.post p
  | clear => exact Index.holds_empty

theorem Index.Holds.foldl {index : Index} {ledger : Ledger} (h : index.Holds ledger)
    (operations : List Operation) :
    (operations.foldl Index.perform index).Holds (operations.foldl Ledger.perform ledger) := by
  induction operations generalizing index ledger with
  | nil => exact h
  | cons operation rest ih => exact ih (h.perform operation)

/-! ## Runs in a folder -/

namespace Folder

variable {σ : Type} [Disk σ]

/-- What is done to a folder, with its outcome. -/
inductive Step where
  | posted (posting : Posting)
  /-- The document could not be written. -/
  | refused (posting : Posting)
  | reopened
deriving DecidableEq, Repr

/-- The posts that were taken. -/
def taken (steps : List Step) : Ledger :=
  steps.filterMap fun
    | .posted p => some p
    | .refused _ | .reopened => none

@[simp] theorem taken_append (before after : List Step) :
    taken (before ++ after) = taken before ++ taken after := List.filterMap_append

@[simp] theorem taken_posted (ledger : Ledger) : taken (ledger.map .posted) = ledger := by
  induction ledger with
  | nil => rfl
  | cons p rest ih => exact congrArg (p :: ·) ih

/-- The steps that lead from a folder that was just opened to another, and what the disk is then. -/
inductive Runs (start : Folder) (opened : σ) : List Step → Folder → σ → Prop
  | start : Runs start opened [] start opened
  | posted {steps : List Step} {folder next : Folder} {world after : σ} (p : Posting)
      (h : Runs start opened steps folder world)
      (hp : folder.post p.freshId p.file p.fact world = ((.ok (), next), after)) :
      Runs start opened (steps ++ [.posted p]) next after
  | refused {steps : List Step} {folder next : Folder} {world after : σ} {error : BlackboardError}
      (p : Posting) (h : Runs start opened steps folder world)
      (hp : folder.post p.freshId p.file p.fact world = ((.error error, next), after)) :
      Runs start opened (steps ++ [.refused p]) next after
  | reopened {steps : List Step} {folder next : Folder} {world after : σ}
      (h : Runs start opened steps folder world)
      (ho : openAt folder.base world = (.ok next, after)) :
      Runs start opened (steps ++ [.reopened]) next after

/-- Posts one after the other, whatever comes of each. -/
def attempt (folder : Folder) (world : σ) : List Posting → List Step × Folder × σ
  | [] => ([], folder, world)
  | p :: rest =>
    match folder.post p.freshId p.file p.fact world with
    | ((.ok (), next), after) =>
      let (steps, last) := attempt next after rest
      (.posted p :: steps, last)
    | ((.error _, next), after) =>
      let (steps, last) := attempt next after rest
      (.refused p :: steps, last)

/-- Any posts go on with a run. -/
theorem Runs.attempt {start folder : Folder} {opened world : σ} {steps : List Step}
    (h : start.Runs opened steps folder world) (posts : List Posting) :
    start.Runs opened (steps ++ (folder.attempt world posts).1) (folder.attempt world posts).2.1
      (folder.attempt world posts).2.2 := by
  induction posts generalizing steps folder world with
  | nil =>
    rw [Folder.attempt, List.append_nil]
    exact h
  | cons p rest ih =>
    rw [Folder.attempt]
    cases hp : folder.post p.freshId p.file p.fact world with
    | mk posted after =>
      obtain ⟨answer, next⟩ := posted
      cases answer with
      | ok =>
        have hrest := ih (h.posted p hp)
        rw [List.append_assoc] at hrest
        exact hrest
      | error e =>
        have hrest := ih (h.refused p hp)
        rw [List.append_assoc] at hrest
        exact hrest

variable {folder : Folder} {after : σ}

/-- Between two openings the index follows the posts that are taken. -/
theorem Runs.holds {start : Folder} {opened : σ} {steps : List Step} (hstart : start.index = {})
    (h : start.Runs opened steps folder after) (hsteps : .reopened ∉ steps) :
    folder.index.Holds (taken steps) := by
  induction h with
  | start => rw [hstart]; exact Index.holds_empty
  | posted p _ hp ih =>
    obtain ⟨-, rfl⟩ := of_post_ok hp
    rw [taken_append]
    exact (ih (by simp_all)).post p
  | refused p _ hp ih =>
    obtain ⟨-, rfl⟩ := of_post_error hp
    rw [taken_append]
    simpa [taken] using ih (by simp_all)
  | reopened => simp at hsteps

end Folder

/-! ## Both kinds of blackboard -/

/-- **A blackboard shows what its ledger says,** in memory after any posts and clearings, and in a folder
that was empty at first after any posts that were all taken. -/
theorem reflects_ledger :
    (∀ operations : List Operation,
      (operations.foldl Index.perform {}).Reflects (operations.foldl Ledger.perform [])) ∧
    (∀ {σ : Type} [Disk σ] (base : String) (world opened after : σ) (start folder : Folder)
      (ledger : Ledger), Folder.openAt base world = (.ok start, opened) →
      Disk.names start.directory opened = .ok [] →
      start.Runs opened (ledger.map .posted) folder after → folder.index.Reflects ledger) ∧
    -- A post about one file leaves what is shown of all others.
    (∀ (index : Index) (p : Posting) (other : FileId), other ≠ p.file →
      (index.perform (.post p)).artifacts other = index.artifacts other) ∧
    (∀ {σ : Type} [Disk σ] (folder : Folder) (p : Posting) (world : σ) (other : FileId),
      other ≠ p.file → (folder.post p.freshId p.file p.fact world).1.2.index.artifacts other =
        folder.index.artifacts other) := by
  refine ⟨fun operations => (Index.holds_empty.foldl operations).reflects, ?_, ?_, ?_⟩
  · intro σ _ base world opened after start folder ledger hopen hempty hruns
    have hstart := Folder.index_of_openAt hopen hempty
    have hholds := hruns.holds hstart (by simp)
    rw [Folder.taken_posted] at hholds
    exact hholds.reflects
  · intro index p other h
    exact (Index.artifacts_post ..).trans (if_neg h)
  · intro σ _ folder p world other h
    exact Folder.artifacts_post_of_ne h

/-- A post of a comment. -/
def Posting.comment (freshId : String) (file : FileId) (text : String) : Posting where
  freshId := freshId
  file := file
  fact := { type := .comment, source := "notes", value := .text text, createdAt := ⟨0, 0⟩ }

/-- Three posts about two files, to a folder in an empty volume. -/
theorem reflects_ledger_volume :
    ∃ (start folder : Folder) (opened after : Volume) (ledger : Ledger),
      ledger = [.comment "a" ⟨7⟩ "first", .comment "b" ⟨8⟩ "other", .comment "c" ⟨7⟩ "second"] ∧
      Folder.openAt "bb" (Volume.atDirectory ["w"]) = (.ok start, opened) ∧
      Disk.names start.directory opened = .ok [] ∧
      start.Runs opened (ledger.map .posted) folder after ∧ folder.index.Reflects ledger ∧
      folder.index.size = 2 ∧
      (folder.index.perform (.post (.comment "d" ⟨7⟩ "third"))).artifacts ⟨8⟩ =
        folder.index.artifacts ⟨8⟩ ∧
      (folder.post "d" ⟨7⟩ (Posting.comment "d" ⟨7⟩ "third").fact after).1.2.index.artifacts ⟨8⟩ =
        folder.index.artifacts ⟨8⟩ := by
  let ledger : Ledger :=
    [.comment "a" ⟨7⟩ "first", .comment "b" ⟨8⟩ "other", .comment "c" ⟨7⟩ "second"]
  let start : Folder := { base := "bb" }
  let opened := (Folder.openAt "bb" (Volume.atDirectory ["w"])).2
  have hopen : Folder.openAt "bb" (Volume.atDirectory ["w"]) = (.ok start, opened) := rfl
  have hempty : Disk.names start.directory opened = .ok [] := by decide +kernel
  have hsteps : (start.attempt opened ledger).1 = ledger.map .posted := by decide +kernel
  obtain ⟨folder, after, hruns⟩ :
      ∃ folder after, start.Runs opened (ledger.map .posted) folder after := by
    have hattempt := (Folder.Runs.start : start.Runs opened [] start opened).attempt ledger
    rw [List.nil_append, hsteps] at hattempt
    exact ⟨_, _, hattempt⟩
  obtain ⟨-, hfolder, hindex, hpost⟩ := reflects_ledger
  have hreflects := hfolder "bb" _ _ after _ folder ledger hopen hempty hruns
  exact ⟨start, folder, opened, after, ledger, rfl, hopen, hempty, hruns, hreflects,
    hreflects.size.trans rfl, hindex folder.index (.comment "d" ⟨7⟩ "third") ⟨8⟩ (by decide),
    hpost folder (.comment "d" ⟨7⟩ "third") after ⟨8⟩ (by decide)⟩

end Hallmark.Blackboard
