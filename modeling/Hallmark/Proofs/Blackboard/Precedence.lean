import Mathlib.Data.List.Induction
import Mathlib.Data.List.Perm.Basic
import Hallmark.Proofs.Blackboard.Folder
import Hallmark.Proofs.Blackboard.Record
import Hallmark.Proofs.Blackboard.Storage

/-!
# `Hallmark/Proofs/Blackboard/Precedence.lean` — which document an opening takes

A document is about the file of its first artifact, whatever its name is; so several documents may be about
one file, and an opening takes the one that the directory lists last (`get?_ofDocuments`). What it takes
depends on the order of the listing exactly if documents about the file differ (`forall_perm_iff`). Main
statement: `openAt_takes_last`.
-/

set_option autoImplicit false

namespace Hallmark.Blackboard

open Volume.Path (join)

/-! ## What a document says about a file -/

section Documents

variable {content : String → Except SystemError (List UInt8)} {names : List String} {name : String}
  {file : FileId} {artifacts : List Artifact}

/-- The artifacts of a document about a file. A document is about the file of its first artifact. -/
def heldAbout? (content : String → Except SystemError (List UInt8)) (file : FileId) (name : String) :
    Option (List Artifact) :=
  if isDocumentName name then
    match content name with
    | .error _ => none
    | .ok document =>
      (artifactsOf? document).filter fun artifacts => artifacts.head?.map Artifact.file = some file
  else none

theorem heldAbout?_eq_some_iff :
    heldAbout? content file name = some artifacts ↔ isDocumentName name = true ∧
      ∃ document, content name = .ok document ∧ artifactsOf? document = some artifacts ∧
        artifacts.head?.map Artifact.file = some file := by
  rw [heldAbout?]
  cases isDocumentName name with
  | false => simp
  | true =>
    cases content name with
    | error e => simp
    | ok document => simp [Option.filter_eq_some_iff]

/-- A document is about one file only. -/
theorem file_unique_of_heldAbout? {other : FileId} {others : List Artifact}
    (h : heldAbout? content file name = some artifacts)
    (h' : heldAbout? content other name = some others) : file = other := by
  obtain ⟨-, document, hcontent, hartifacts, hfile⟩ := heldAbout?_eq_some_iff.1 h
  obtain ⟨-, document', hcontent', hothers, hother⟩ := heldAbout?_eq_some_iff.1 h'
  obtain rfl : document = document' := Except.ok.inj (hcontent.symm.trans hcontent')
  obtain rfl : artifacts = others := Option.some.inj (hartifacts.symm.trans hothers)
  exact Option.some.inj (hfile.symm.trans hother)

/-- A document that was written for artifacts is about the file of the first. -/
theorem heldAbout?_documentOf (hname : isDocumentName name = true)
    (hcontent : content name = .ok (documentOf artifacts))
    (hfile : artifacts.head?.map Artifact.file = some file)
    (htimes : ∀ artifact ∈ artifacts, ∀ fact ∈ artifact.attributes,
      Time.Timestamp.ofText? fact.createdAt.toText = some fact.createdAt) :
    heldAbout? content file name = some artifacts :=
  heldAbout?_eq_some_iff.2 ⟨hname, _, hcontent, artifactsOf?_documentOf htimes, hfile⟩

theorem Index.get?_enter (index : Index) (artifacts : List Artifact) (file : FileId) :
    (index.enter artifacts).get? file =
      if artifacts.head?.map Artifact.file = some file then some artifacts else index.get? file := by
  cases artifacts with
  | nil => rfl
  | cons first rest => simp [enter, Table.get?_insert, eq_comm]

/-- One more name: its document counts if it is about the file. -/
theorem get?_ofDocuments_concat (names : List String) (name : String) :
    (Index.ofDocuments (names ++ [name]) content).get? file =
      (heldAbout? content file name).or ((Index.ofDocuments names content).get? file) := by
  rw [Index.ofDocuments, List.filter_append, List.foldl_append, heldAbout?]
  -- What the names before it lead to is an index again.
  change (List.foldl _ (Index.ofDocuments names content) _).get? file = _
  by_cases hname : isDocumentName name = true
  · cases hcontent : content name with
    | error e => simp [hname, hcontent]
    | ok document =>
      cases hartifacts : artifactsOf? document with
      | none => simp [hname, hcontent, hartifacts, Index.enter]
      | some artifacts =>
        simp only [hname, hcontent, hartifacts, List.filter_cons, List.filter_nil, if_true,
          List.foldl_cons, List.foldl_nil, Option.getD_some, Index.get?_enter, Option.filter_some,
          decide_eq_true_eq]
        split <;> rfl
  · simp [hname]

/-- The last document is taken if it is about the file. -/
theorem get?_of_last (hheld : heldAbout? content file name = some artifacts) :
    (Index.ofDocuments (names ++ [name]) content).get? file = some artifacts := by
  rw [get?_ofDocuments_concat, hheld, Option.some_or]

/-- **The last document about a file is taken.** -/
theorem get?_ofDocuments (names : List String) :
    (Index.ofDocuments names content).get? file = names.reverse.findSome? (heldAbout? content file) := by
  induction names using List.reverseRecOn with
  | nil => rfl
  | append_singleton names name ih =>
    rw [get?_ofDocuments_concat, ih, List.reverse_append, List.reverse_singleton, List.singleton_append,
      List.findSome?_cons]
    cases heldAbout? content file name <;> rfl

/-- Documents that are about a file hold the same artifacts. -/
def Agree (content : String → Except SystemError (List UInt8)) (names : List String) (file : FileId) :
    Prop :=
  ∀ name ∈ names, ∀ other ∈ names, ∀ artifacts others, heldAbout? content file name = some artifacts →
    heldAbout? content file other = some others → artifacts = others

theorem get?_of_agree (h : Agree content names file) (hmem : name ∈ names)
    (hheld : heldAbout? content file name = some artifacts) :
    (Index.ofDocuments names content).get? file = some artifacts := by
  rw [get?_ofDocuments]
  cases hlast : names.reverse.findSome? (heldAbout? content file) with
  | none =>
    rw [List.findSome?_eq_none_iff] at hlast
    cases (hlast name (List.mem_reverse.2 hmem)).symm.trans hheld
  | some others =>
    obtain ⟨other, hother, hothers⟩ := List.exists_of_findSome?_eq_some hlast
    rw [h name hmem other (List.mem_reverse.1 hother) artifacts others hheld hothers]

theorem Agree.perm {names' : List String} (h : Agree content names file) (hp : names'.Perm names) :
    Agree content names' file := by
  intro name hname other hother
  exact h name (hp.mem_iff.1 hname) other (hp.mem_iff.1 hother)

/-- A name is moved to the end. -/
theorem perm_move_last (hmem : name ∈ names) : (names.erase name ++ [name]).Perm names :=
  (List.perm_append_singleton name _).trans (List.perm_cons_erase hmem).symm

/-- Documents that are each named for the file that they are about agree. -/
theorem agree_of_named (h : ∀ name ∈ names, ∀ file artifacts,
    heldAbout? content file name = some artifacts → name = documentName file) (file : FileId) :
    Agree content names file := by
  intro name hname other hother artifacts others hheld hheld'
  obtain rfl := h name hname file artifacts hheld
  obtain rfl := h other hother file others hheld'
  exact Option.some.inj (hheld.symm.trans hheld')

/-- What is taken does not depend on the order exactly if the documents about the file agree. -/
theorem forall_perm_iff :
    (∀ names' : List String, names'.Perm names →
      (Index.ofDocuments names' content).get? file = (Index.ofDocuments names content).get? file) ↔
      Agree content names file := by
  constructor
  -- Each of two documents about the file is taken in an order that lists it last.
  · intro h name hname other hother artifacts others hheld hheld'
    have hfirst := h _ (perm_move_last hname)
    have hsecond := h _ (perm_move_last hother)
    rw [get?_of_last hheld] at hfirst
    rw [get?_of_last hheld'] at hsecond
    exact Option.some.inj (hfirst.trans hsecond.symm)
  · intro h names' hp
    cases hlast : (Index.ofDocuments names content).get? file with
    | none =>
      rw [get?_ofDocuments, List.findSome?_eq_none_iff] at hlast ⊢
      intro name hname
      exact hlast name (List.mem_reverse.2 (hp.mem_iff.1 (List.mem_reverse.1 hname)))
    | some artifacts =>
      rw [get?_ofDocuments] at hlast
      obtain ⟨name, hname, hheld⟩ := List.exists_of_findSome?_eq_some hlast
      exact get?_of_agree (h.perm hp) (hp.mem_iff.2 (List.mem_reverse.1 hname)) hheld

/-- Only the documents that are listed are read. -/
theorem ofDocuments_congr {content' : String → Except SystemError (List UInt8)}
    (h : ∀ name ∈ names, content' name = content name) :
    Index.ofDocuments names content' = Index.ofDocuments names content := by
  refine List.foldl_ext _ _ _ fun index name hname => ?_
  rw [h name (List.mem_of_mem_filter hname)]

end Documents

/-! ## Openings -/

namespace Folder

variable {σ : Type} [Disk σ] {folder : Folder} {base : String} {world after : σ}

/-- Where a blackboard below a base has its documents. -/
def directoryBelow (base : String) : String := join base "artifacts"

theorem directory_eq (folder : Folder) : folder.directory = directoryBelow folder.base := rfl

/-- What reading a document of the blackboard below a base brings. -/
def contentAt (base : String) (world : σ) (name : String) : Except SystemError (List UInt8) :=
  Disk.content (join (directoryBelow base) name) world

/-- An opening that succeeds holds what the listed documents brought. -/
theorem of_openAt (h : openAt base world = (.ok folder, after)) :
    ∃ names, Disk.names (directoryBelow base) after = .ok names ∧
      folder.index = Index.ofDocuments names (contentAt base after) := by
  obtain ⟨rfl, names, -, hnames, hindex⟩ := openAt_eq_ok_iff.1 h
  simp only [directory_eq] at hnames hindex
  exact ⟨names, hnames, hindex⟩

/-- **An opening takes the last document about each file that the directory lists.** The document that is
named for the file is taken if no other about it differs; the order of the listing does not matter exactly
if documents do not differ. -/
theorem openAt_takes_last (h : openAt base world = (.ok folder, after)) :
    ∃ names, Disk.names (directoryBelow base) after = .ok names ∧
      (∀ file, folder.index.get? file =
        names.reverse.findSome? (heldAbout? (contentAt base after) file)) ∧
      (∀ file artifacts, documentName file ∈ names →
        heldAbout? (contentAt base after) file (documentName file) = some artifacts →
        Agree (contentAt base after) names file → folder.index.artifacts file = artifacts) ∧
      -- Documents that are each named for the file that they are about.
      ((∀ name ∈ names, ∀ file artifacts,
          heldAbout? (contentAt base after) file name = some artifacts → name = documentName file) →
        ∀ file, Agree (contentAt base after) names file) ∧
      -- Any order of the same names.
      (∀ file, (∀ names' : List String, names'.Perm names →
          (Index.ofDocuments names' (contentAt base after)).get? file = folder.index.get? file) ↔
        Agree (contentAt base after) names file) ∧
      -- Another opening of the same documents.
      ∀ (otherWorld otherAfter : σ) (fresh : Folder) (listed : List String),
        openAt base otherWorld = (.ok fresh, otherAfter) →
        Disk.names (directoryBelow base) otherAfter = .ok listed → listed.Perm names →
        (∀ name ∈ names, contentAt base otherAfter name = contentAt base after name) →
        ∀ file, Agree (contentAt base after) names file →
          fresh.index.get? file = folder.index.get? file := by
  obtain ⟨names, hnames, hindex⟩ := of_openAt h
  refine ⟨names, hnames, ?_, ?_, agree_of_named, ?_, ?_⟩
  · intro file
    rw [hindex, get?_ofDocuments]
  · intro file artifacts hmem hheld hagree
    rw [Index.artifacts, hindex, get?_of_agree hagree hmem hheld, Option.getD_some]
  · intro file
    rw [hindex]
    exact forall_perm_iff
  · intro otherWorld otherAfter fresh listed hopen hlisted hperm hsame file hagree
    obtain ⟨others, hothers, hfresh⟩ := of_openAt hopen
    obtain rfl : others = listed := Except.ok.inj (hothers.symm.trans hlisted)
    have hcontent : ∀ name ∈ others, contentAt base otherAfter name = contentAt base after name := by
      intro name hname
      exact hsame name (hperm.mem_iff.1 hname)
    rw [hfresh, hindex, ofDocuments_congr hcontent]
    exact forall_perm_iff.2 hagree others hperm

/-! ## Backup copies -/

/-- A volume that has the directory is opened as it is. -/
theorem openAt_volume {volume : Volume} {names : List String}
    (h : Disk.names (directoryBelow base) volume = .ok names) :
    openAt base volume =
      (.ok { base := base, index := Index.ofDocuments names (contentAt base volume) }, volume) := by
  have hdirectory : Volume.IsDirectoryPath (directoryBelow base) := isDirectoryPath { base := base }
  obtain ⟨there, hleads⟩ := Volume.leads_of_names hdirectory h
  have hmade := Volume.makeDirectories_of_leads hleads
  exact openAt_eq_ok_iff.2 ⟨rfl, names, Volume.settle_eq_ok_iff.2 hmade, h, rfl⟩

theorem contentAt_volume {volume : Volume} {name : String} {document : List UInt8}
    (location : Volume.Location)
    (hplace : volume.resolve (join (directoryBelow base) name) = .ok location)
    (hstands : volume.itemAt? location = some (.file document)) :
    contentAt base volume name = .ok document :=
  Volume.content_eq_ok_iff.2 ⟨location, hplace, hstands⟩

/-- A volume in which the blackboard below `bb` has some documents, listed in order. -/
def volumeWith (documents : List (String × List Artifact)) : Volume :=
  documents.foldl
    (fun volume d => volume.put ["w", "bb", "artifacts", d.1] (.file (documentOf d.2)))
    (((Volume.atDirectory ["w"]).put ["w", "bb"] .directory).put ["w", "bb", "artifacts"] .directory)

/-- A backup copy that is the same does no harm. -/
theorem openAt_takes_last_copied :
    ∃ (kept : List Artifact) (volume : Volume) (folder : Folder),
      volume = volumeWith [("1.json", kept), ("backup.json", kept)] ∧ kept ≠ [] ∧
      openAt "bb" volume = (.ok folder, volume) ∧ folder.index.artifacts ⟨1⟩ = kept := by
  let kept : List Artifact := [{ id := "a", file := ⟨1⟩ }]
  let volume := volumeWith [("1.json", kept), ("backup.json", kept)]
  have hlisted : Disk.names (directoryBelow "bb") volume = .ok ["1.json", "backup.json"] := by
    decide +kernel
  have hheld : ∀ name ∈ ["1.json", "backup.json"],
      heldAbout? (contentAt "bb" volume) ⟨1⟩ name = some kept := by
    intro name hname
    rcases List.mem_pair.1 hname with rfl | rfl
    · have hcontent : contentAt "bb" volume "1.json" = .ok (documentOf kept) :=
        contentAt_volume ["w", "bb", "artifacts", "1.json"] (by decide +kernel) rfl
      exact heldAbout?_documentOf (by decide) hcontent rfl (by simp [kept])
    · have hcontent : contentAt "bb" volume "backup.json" = .ok (documentOf kept) :=
        contentAt_volume ["w", "bb", "artifacts", "backup.json"] (by decide +kernel) rfl
      exact heldAbout?_documentOf (by decide) hcontent rfl (by simp [kept])
  have hagree : Agree (contentAt "bb" volume) ["1.json", "backup.json"] ⟨1⟩ := by
    intro name hname other hother artifacts others ha hb
    rw [hheld name hname] at ha
    rw [hheld other hother] at hb
    exact Option.some.inj (ha.symm.trans hb)
  have hopen := openAt_volume hlisted
  have hname : documentName ⟨1⟩ = "1.json" := by decide +kernel
  obtain ⟨names, hnames, -, hnamed, -⟩ := openAt_takes_last hopen
  obtain rfl : ["1.json", "backup.json"] = names := Except.ok.inj (hlisted.symm.trans hnames)
  have hkept := hnamed ⟨1⟩ kept
  rw [hname] at hkept
  exact ⟨kept, volume, _, rfl, by simp [kept], hopen,
    hkept List.mem_cons_self (hheld _ List.mem_cons_self) hagree⟩

/-- A backup copy that is older is taken where it is listed last, so the order of the listing matters. -/
theorem openAt_takes_stale :
    ∃ (current stale : List Artifact) (listed swapped : Volume) (folder fresh : Folder),
      listed = volumeWith [("1.json", current), ("backup.json", stale)] ∧
      swapped = volumeWith [("backup.json", stale), ("1.json", current)] ∧ current ≠ stale ∧
      heldAbout? (contentAt "bb" listed) ⟨1⟩ (documentName ⟨1⟩) = some current ∧
      openAt "bb" listed = (.ok folder, listed) ∧ folder.index.artifacts ⟨1⟩ = stale ∧
      openAt "bb" swapped = (.ok fresh, swapped) ∧ fresh.index.artifacts ⟨1⟩ = current := by
  let current : List Artifact := [{ id := "a", file := ⟨1⟩ }]
  let stale : List Artifact := [{ id := "b", file := ⟨1⟩ }]
  let listed := volumeWith [("1.json", current), ("backup.json", stale)]
  let swapped := volumeWith [("backup.json", stale), ("1.json", current)]
  have hlisted : Disk.names (directoryBelow "bb") listed =
      .ok (["1.json"] ++ ["backup.json"]) := by
    decide +kernel
  have hswapped : Disk.names (directoryBelow "bb") swapped =
      .ok (["backup.json"] ++ ["1.json"]) := by
    decide +kernel
  have hcurrent : contentAt "bb" listed "1.json" = .ok (documentOf current) :=
    contentAt_volume ["w", "bb", "artifacts", "1.json"] (by decide +kernel) rfl
  have hstale : contentAt "bb" listed "backup.json" = .ok (documentOf stale) :=
    contentAt_volume ["w", "bb", "artifacts", "backup.json"] (by decide +kernel) rfl
  have hcurrent' : contentAt "bb" swapped "1.json" = .ok (documentOf current) :=
    contentAt_volume ["w", "bb", "artifacts", "1.json"] (by decide +kernel) rfl
  have hname : documentName ⟨1⟩ = "1.json" := by decide +kernel
  refine ⟨current, stale, listed, swapped, _, _, rfl, rfl, by decide, ?_, openAt_volume hlisted, ?_,
    openAt_volume hswapped, ?_⟩
  · rw [hname]
    exact heldAbout?_documentOf (by decide) hcurrent rfl (by simp [current])
  · rw [Index.artifacts, get?_of_last
      (heldAbout?_documentOf (by decide) hstale rfl (by simp [stale])), Option.getD_some]
  · rw [Index.artifacts, get?_of_last
      (heldAbout?_documentOf (by decide) hcurrent' rfl (by simp [current])), Option.getD_some]

end Folder

end Hallmark.Blackboard
