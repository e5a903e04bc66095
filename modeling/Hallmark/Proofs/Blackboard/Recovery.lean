import Hallmark.Proofs.Blackboard.Ledger
import Hallmark.Proofs.Blackboard.Precedence

/-!
# `Hallmark/Proofs/Blackboard/Recovery.lean` — nothing that was taken is lost

A blackboard that is kept in a folder has one document for each file that something was posted about: that
of the one artifact which its ledger has for the file. A post that is taken writes the document and enters
the artifact; a post that is refused changes neither; and opening the folder anew reads the same artifacts
back. So the index and the documents agree after any run. Main statement: `runs_recover`.
-/

set_option autoImplicit false

namespace Hallmark.Blackboard

open Volume.Path (join)

/-! ## The documents of a ledger -/

namespace Ledger

/-- The document of a file that something was posted about. -/
def document? (ledger : Ledger) (file : FileId) : Option (List UInt8) :=
  (ledger.artifact? file).map fun artifact => documentOf [artifact]

@[simp] theorem document?_nil (file : FileId) : document? [] file = none := rfl

/-- The times of all facts can be read back from their texts. -/
def TimesReadBack (ledger : Ledger) : Prop :=
  ∀ p ∈ ledger, Time.Timestamp.ofText? p.fact.createdAt.toText = some p.fact.createdAt

variable {ledger : Ledger} {file : FileId} {artifact : Artifact}

theorem file_of_artifact? (h : ledger.artifact? file = some artifact) : artifact.file = file := by
  obtain ⟨first, -, rfl⟩ := Option.map_eq_some_iff.1 h
  rfl

/-- The document of a file gives its artifact back. -/
theorem artifactsOf?_artifact (htimes : ledger.TimesReadBack)
    (h : ledger.artifact? file = some artifact) :
    artifactsOf? (documentOf [artifact]) = some [artifact] := by
  obtain ⟨first, -, rfl⟩ := Option.map_eq_some_iff.1 h
  refine artifactsOf?_documentOf fun a ha fact hfact => ?_
  obtain rfl := List.mem_singleton.1 ha
  obtain ⟨p, hp, rfl⟩ := List.mem_map.1 hfact
  exact htimes p (List.mem_of_mem_filter hp)

/-- One more post changes the document of its file. -/
theorem document?_concat (p : Posting) :
    document? (ledger ++ [p]) =
      Function.update ledger.document? p.file (document? (ledger ++ [p]) p.file) := by
  funext file
  by_cases h : file = p.file
  · rw [h, Function.update_self]
  · rw [Function.update_of_ne h, document?, document?, artifact?_concat, if_neg (Ne.symm h)]

end Ledger

/-! ## Reading the documents -/

section Reading

variable {ledger : Ledger} {names : List String} {file : FileId}
  {content : String → Except SystemError (List UInt8)}

/-- A stored document is about its file. -/
theorem heldAbout?_documentName (htimes : ledger.TimesReadBack)
    (hcontent : ∀ file document, ledger.document? file = some document →
      content (documentName file) = .ok document) {artifact : Artifact}
    (h : ledger.artifact? file = some artifact) :
    heldAbout? content file (documentName file) = some [artifact] := by
  have hdocument : ledger.document? file = some (documentOf [artifact]) := by
    rw [Ledger.document?, h]
    rfl
  have hfile : [artifact].head?.map Artifact.file = some file := by
    rw [List.head?_cons, Option.map_some, Ledger.file_of_artifact? h]
  exact heldAbout?_eq_some_iff.2 ⟨isDocumentName_documentName file, _, hcontent file _ hdocument,
    Ledger.artifactsOf?_artifact htimes h, hfile⟩

/-- The index of stored documents has the artifacts that they were written for. -/
theorem holds_ofDocuments (htimes : ledger.TimesReadBack)
    (hnames : ∀ name, name ∈ names ↔ ∃ file, documentName file = name ∧ (ledger.document? file).isSome)
    (hcontent : ∀ file document, ledger.document? file = some document →
      content (documentName file) = .ok document) :
    (Index.ofDocuments names content).Holds ledger := by
  have hstored : ∀ name ∈ names, ∃ owner artifact, name = documentName owner ∧
      ledger.artifact? owner = some artifact := by
    intro name hname
    obtain ⟨owner, rfl, hsome⟩ := (hnames name).1 hname
    obtain ⟨artifact, hartifact⟩ := Option.isSome_iff_exists.1 (Option.isSome_map.symm.trans hsome)
    exact ⟨owner, artifact, rfl, hartifact⟩
  have hnamed : ∀ name ∈ names, ∀ file artifacts,
      heldAbout? content file name = some artifacts → name = documentName file := by
    intro name hname file artifacts hheld
    obtain ⟨owner, artifact, rfl, hartifact⟩ := hstored name hname
    rw [file_unique_of_heldAbout? hheld (heldAbout?_documentName htimes hcontent hartifact)]
  intro file
  cases hartifact : ledger.artifact? file with
  | some artifact =>
    have hmem : documentName file ∈ names :=
      (hnames _).2 ⟨file, rfl, by rw [Ledger.document?, hartifact]; rfl⟩
    exact get?_of_agree (agree_of_named hnamed file) hmem
      (heldAbout?_documentName htimes hcontent hartifact)
  | none =>
    rw [get?_ofDocuments, Option.map_none, List.findSome?_eq_none_iff]
    intro name hname
    rw [List.mem_reverse] at hname
    by_contra hheld
    obtain ⟨artifacts, hheld⟩ := Option.ne_none_iff_exists'.1 hheld
    obtain ⟨owner, artifact, rfl, howner⟩ := hstored name hname
    obtain rfl := documentName_injective (hnamed _ hname file artifacts hheld)
    cases hartifact.symm.trans howner

end Reading

/-! ## What every step keeps -/

namespace Folder

variable {σ : Type} [Disk σ]

/-- The index and the documents of a folder both say what a ledger says. -/
structure Kept (folder : Folder) (ledger : Ledger) (world : σ) : Prop where
  index : folder.index.Holds ledger
  stored : Stored folder.directory ledger.document? world

variable {start folder next : Folder} {ledger : Ledger} {world opened after : σ} {p : Posting}

theorem Kept.posted (hdisk : KeepsDocuments σ folder.directory) (h : folder.Kept ledger world)
    (hp : folder.post p.freshId p.file p.fact world = ((.ok (), next), after)) :
    next.Kept (ledger ++ [p]) after := by
  obtain ⟨hwrite, rfl⟩ := of_post_ok hp
  have hindex := h.index.post p
  refine ⟨hindex, ?_⟩
  have hdocument : Ledger.document? (ledger ++ [p]) p.file =
      some (documentOf ((folder.index.post p.freshId p.file p.fact).artifacts p.file)) := by
    rw [hindex.artifacts, Ledger.document?, Ledger.artifact?_concat, if_pos rfl]
    rfl
  rw [Ledger.document?_concat, hdocument]
  exact hdisk.written h.stored hwrite

theorem Kept.refused {error : BlackboardError} (hdisk : KeepsDocuments σ folder.directory)
    (h : folder.Kept ledger world)
    (hp : folder.post p.freshId p.file p.fact world = ((.error error, next), after)) :
    next.Kept ledger after := by
  obtain ⟨⟨refusal, hwrite⟩, rfl⟩ := of_post_error hp
  exact ⟨h.index, hdisk.refused h.stored hwrite⟩

/-- Opening the folder anew succeeds, and reads what was stored. -/
theorem Kept.reopened (hdisk : KeepsDocuments σ folder.directory) (htimes : ledger.TimesReadBack)
    (h : folder.Kept ledger world) :
    ∃ fresh after, openAt folder.base world = (.ok fresh, after) ∧ fresh.base = folder.base ∧
      fresh.Kept ledger after := by
  obtain ⟨after, hmade, hstored⟩ := hdisk.made h.stored
  obtain ⟨names, hnames, hlisted⟩ := hstored.listed
  let content := fun name => Disk.content (join folder.directory name) after
  refine ⟨{ base := folder.base, index := Index.ofDocuments names content }, after,
    openAt_eq_ok_iff.2 ⟨rfl, names, hmade, hnames, rfl⟩, rfl, ?_, hstored⟩
  exact holds_ofDocuments htimes hlisted hstored.content

theorem Runs.base_eq {steps : List Step} (h : start.Runs opened steps folder world) :
    folder.base = start.base := by
  induction h with
  | start => rfl
  | posted p _ hp ih =>
    obtain ⟨-, rfl⟩ := of_post_ok hp
    exact ih
  | refused p _ hp ih =>
    obtain ⟨-, rfl⟩ := of_post_error hp
    exact ih
  | reopened _ ho ih =>
    exact (openAt_eq_ok_iff.1 ho).1.trans ih

theorem Runs.directory_eq {steps : List Step} (h : start.Runs opened steps folder world) :
    folder.directory = start.directory := by
  rw [directory, directory, h.base_eq]

theorem Kept.of_openAt {base : String} (hopen : openAt base world = (.ok start, opened))
    (hempty : Disk.names start.directory opened = .ok []) : start.Kept [] opened where
  index := by
    rw [index_of_openAt hopen hempty]
    exact Index.holds_empty
  stored := by
    refine ⟨⟨[], hempty, ?_⟩, ?_⟩
    · intro name
      simp
    · intro file document h
      cases h

/-- **What every run keeps:** the index and the documents say what the ledger of taken posts says. -/
theorem Runs.kept {steps : List Step} (hdisk : KeepsDocuments σ start.directory)
    (hstart : start.Kept [] opened) (htimes : (taken steps).TimesReadBack)
    (h : start.Runs opened steps folder world) : folder.Kept (taken steps) world := by
  induction h with
  | start => exact hstart
  | posted p hruns hp ih =>
    rw [taken_append] at htimes ⊢
    have hkept := ih fun q hq => htimes q (List.mem_append_left _ hq)
    exact hkept.posted (hruns.directory_eq ▸ hdisk) hp
  | refused p hruns hp ih =>
    rw [taken_append] at htimes ⊢
    have hkept := ih fun q hq => htimes q (List.mem_append_left _ hq)
    exact (List.append_nil (taken _)).symm ▸ hkept.refused (hruns.directory_eq ▸ hdisk) hp
  | reopened hruns ho ih =>
    rw [taken_append] at htimes ⊢
    have hbefore : (taken _).TimesReadBack := fun q hq => htimes q (List.mem_append_left _ hq)
    obtain ⟨fresh, last, hopen, -, hkept⟩ := (ih hbefore).reopened (hruns.directory_eq ▸ hdisk) hbefore
    cases hopen.symm.trans ho
    exact (List.append_nil (taken _)).symm ▸ hkept

/-! ## What a run leaves -/

/-- The artifacts of a folder are those that its documents hold, and that opening it anew brings. -/
structure Recovers (folder : Folder) (world : σ) : Prop where
  fresh : ∃ fresh after, openAt folder.base world = (.ok fresh, after) ∧ fresh.base = folder.base ∧
    ∀ file, fresh.index.get? file = folder.index.get? file
  documents : ∃ names, Disk.names folder.directory world = .ok names ∧ ∀ file,
    if documentName file ∈ names then
      ∃ document, Disk.content (folder.documentPath file) world = .ok document ∧
        artifactsOf? document = some (folder.index.artifacts file)
    else folder.index.artifacts file = []

theorem Kept.recovers (hdisk : KeepsDocuments σ folder.directory) (htimes : ledger.TimesReadBack)
    (h : folder.Kept ledger world) : folder.Recovers world where
  fresh := by
    obtain ⟨fresh, after, hopen, hbase, hkept⟩ := h.reopened hdisk htimes
    refine ⟨fresh, after, hopen, hbase, ?_⟩
    intro file
    rw [hkept.index file, h.index file]
  documents := by
    obtain ⟨names, hnames, hlisted⟩ := h.stored.listed
    refine ⟨names, hnames, ?_⟩
    intro file
    have hmem : documentName file ∈ names ↔ (ledger.artifact? file).isSome := by
      rw [hlisted]
      constructor
      · rintro ⟨owner, howner, hsome⟩
        obtain rfl := documentName_injective howner
        simpa [Ledger.document?] using hsome
      · intro hsome
        exact ⟨file, rfl, by simpa [Ledger.document?] using hsome⟩
    rw [h.index.artifacts]
    cases hartifact : ledger.artifact? file with
    | none =>
      rw [if_neg (by simp [hmem, hartifact])]
      rfl
    | some artifact =>
      rw [if_pos (by simp [hmem, hartifact])]
      have hdocument : ledger.document? file = some (documentOf [artifact]) := by
        rw [Ledger.document?, hartifact]
        rfl
      exact ⟨_, h.stored.content file _ hdocument, Ledger.artifactsOf?_artifact htimes hartifact⟩

/-- Two folders show the same, and their directories hold the same documents. -/
structure Agrees (folder : Folder) (world : σ) (other : Folder) (otherWorld : σ) : Prop where
  index : ∀ file, folder.index.get? file = other.index.get? file
  documents : ∃ documents, Stored folder.directory documents world ∧
    Stored other.directory documents otherWorld

theorem Kept.agrees {other : Folder} {otherWorld : σ} (h : folder.Kept ledger world)
    (ho : other.Kept ledger otherWorld) : folder.Agrees world other otherWorld where
  index := by
    intro file
    rw [h.index file, ho.index file]
  documents := ⟨ledger.document?, h.stored, ho.stored⟩

/-- **No post that was taken is lost,** and none that was refused leaves a trace, whatever posts are taken
or refused in a folder that was empty at first, and however often it is opened anew. -/
theorem runs_recover {base : String} {steps : List Step} (hdisk : KeepsDocuments σ start.directory)
    (hopen : openAt base world = (.ok start, opened))
    (hempty : Disk.names start.directory opened = .ok [])
    (htimes : (taken steps).TimesReadBack) (hruns : start.Runs opened steps folder after) :
    folder.Recovers after ∧ folder.index.Reflects (taken steps) ∧
    -- A post that is refused changes neither the index nor the documents.
    (∀ (p : Posting) (error : BlackboardError) (next : Folder) (last : σ),
      folder.post p.freshId p.file p.fact after = ((.error error, next), last) →
      next = folder ∧ next.Agrees last folder after ∧ next.Recovers last) ∧
    -- Another run that takes the same posts ends the same, wherever posts were refused in either.
    (∀ (otherWorld otherOpened otherAfter : σ) (otherStart otherFolder : Folder)
      (otherSteps : List Step), openAt base otherWorld = (.ok otherStart, otherOpened) →
      Disk.names otherStart.directory otherOpened = .ok [] →
      otherStart.Runs otherOpened otherSteps otherFolder otherAfter →
      taken otherSteps = taken steps → otherFolder.Agrees otherAfter folder after) := by
  have hkept := hruns.kept hdisk (Kept.of_openAt hopen hempty) htimes
  have hdirectory := hruns.directory_eq ▸ hdisk
  refine ⟨hkept.recovers hdirectory htimes, hkept.index.reflects, ?_, ?_⟩
  · intro p error next last hp
    have hnext := hkept.refused hdirectory hp
    obtain ⟨-, rfl⟩ := of_post_error hp
    exact ⟨rfl, hnext.agrees hkept, hnext.recovers hdirectory htimes⟩
  · intro otherWorld otherOpened otherAfter otherStart otherFolder otherSteps hopen' hempty' hruns' hsame
    have hstart : otherStart.directory = start.directory := by
      rw [directory, directory, (openAt_eq_ok_iff.1 hopen).1, (openAt_eq_ok_iff.1 hopen').1]
    have hkept' := hruns'.kept (hstart ▸ hdisk) (Kept.of_openAt hopen' hempty') (hsame ▸ htimes)
    rw [hsame] at hkept'
    exact hkept'.agrees hkept

/-- Two posts are taken, one between them is refused, and the folder is opened anew. -/
theorem runs_recover_faulty :
    ∃ (start folder : Folder) (opened after : Faulty Volume) (steps : List Step),
      steps = [.posted (.comment "a" ⟨7⟩ "first"), .refused (.comment "b" ⟨8⟩ "lost"),
        .posted (.comment "c" ⟨7⟩ "second"), .reopened] ∧
      openAt "bb" ({ world := Volume.atDirectory ["w"], failing := [false, true] } : Faulty Volume) =
        (.ok start, opened) ∧
      start.Runs opened steps folder after ∧ folder.Recovers after ∧
      folder.index.artifacts ⟨7⟩ = [{ id := "a", file := ⟨7⟩, attributes :=
        [(Posting.comment "a" ⟨7⟩ "first").fact, (Posting.comment "c" ⟨7⟩ "second").fact] }] ∧
      folder.index.artifacts ⟨8⟩ = [] := by
  let first := Posting.comment "a" ⟨7⟩ "first"
  let lost := Posting.comment "b" ⟨8⟩ "lost"
  let second := Posting.comment "c" ⟨7⟩ "second"
  let start : Folder := { base := "bb" }
  let opened : Faulty Volume :=
    { world := (openAt "bb" (Volume.atDirectory ["w"])).2, failing := [false, true] }
  have hdisk : KeepsDocuments (Faulty Volume) start.directory :=
    (keepsDocuments_volume start.isDirectoryPath).faulty
  have hopen : openAt "bb" ({ world := Volume.atDirectory ["w"], failing := [false, true] } :
      Faulty Volume) = (.ok start, opened) := rfl
  have hempty : Disk.names start.directory opened = .ok [] := by decide +kernel
  have htimes : Ledger.TimesReadBack [first, second] := by
    intro p hp
    have htime : p.fact.createdAt = ⟨0, 0⟩ := by
      rcases List.mem_pair.1 hp with rfl | rfl <;> rfl
    rw [htime]
    decide
  have hsteps : (start.attempt opened [first, lost, second]).1 =
      [.posted first, .refused lost, .posted second] := by decide +kernel
  obtain ⟨folder, after, hruns⟩ : ∃ folder after,
      start.Runs opened [.posted first, .refused lost, .posted second] folder after := by
    have hattempt :=
      (Runs.start : start.Runs opened [] start opened).attempt [first, lost, second]
    rw [List.nil_append, hsteps] at hattempt
    exact ⟨_, _, hattempt⟩
  -- What the opening reads need not be computed: it is what the posts must have left.
  have hbefore : (taken [.posted first, .refused lost, .posted second]).TimesReadBack := htimes
  have hkept := hruns.kept hdisk (Kept.of_openAt hopen hempty) hbefore
  obtain ⟨fresh, last, hreopen, -, -⟩ := hkept.reopened (hruns.directory_eq ▸ hdisk) hbefore
  have hall := hruns.reopened hreopen
  have hafter : (taken ([.posted first, .refused lost, .posted second] ++ [.reopened])).TimesReadBack :=
    htimes
  obtain ⟨hrecovers, hreflects, -, -⟩ := runs_recover hdisk hopen hempty hafter hall
  exact ⟨start, fresh, opened, last, _, rfl, hopen, hall, hrecovers, hreflects.artifacts ⟨7⟩,
    hreflects.artifacts ⟨8⟩⟩

end Folder

end Hallmark.Blackboard
