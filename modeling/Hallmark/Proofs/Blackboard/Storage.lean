import Mathlib.Logic.Function.Basic
import Hallmark.Blackboard.Folder
import Hallmark.Proofs.Number.Decimal
import Hallmark.Proofs.Volume.Directory

/-!
# `Hallmark/Proofs/Blackboard/Storage.lean` — where documents are kept

The document of a file has a name of its own in the directory of documents. What a blackboard needs of a
disk is that a document that is written can be read back, and that a write that fails leaves all
documents as they were (`KeepsDocuments`). Main statements: a volume does that (`keepsDocuments_volume`),
and so does a disk on which some writes fail (`KeepsDocuments.faulty`).
-/

set_option autoImplicit false

namespace Hallmark

namespace Blackboard

open Volume (IsFileName IsDirectoryPath)
open Volume.Path (join)

/-! ## Names of documents -/

def documentName (file : FileId) : String := file.toText ++ ".json"

theorem toList_documentName (file : FileId) :
    (documentName file).toList = Number.digits 10 file.number.toNat ++ '.' :: ['j', 's', 'o', 'n'] := by
  simp [documentName, FileId.toText, Number.decimalText]

theorem documentName_injective : Function.Injective documentName := by
  intro file other h
  have hdigits : Number.digits 10 file.number.toNat = Number.digits 10 other.number.toNat := by
    have hlist := congrArg String.toList h
    rw [toList_documentName, toList_documentName] at hlist
    exact List.append_cancel_right hlist
  have hnumber : file.number.toNat = other.number.toNat := by
    have hread := congrArg (Number.digits? 10 0) hdigits
    rw [Number.digits?_digits, Number.digits?_digits] at hread
    exact Option.some.inj hread
  exact congrArg FileId.mk (UInt64.toNat_inj.1 hnumber)

/-- No document has a name without a letter. -/
theorem documentName_ne (file : FileId) {name : String} (h : 'j' ∉ name.toList) :
    documentName file ≠ name := by
  rintro rfl
  simp [toList_documentName] at h

theorem isDocumentName_documentName (file : FileId) : isDocumentName (documentName file) = true := by
  have hpieces : Text.pieces '.' (documentName file).toList =
      [Number.digits 10 file.number.toNat, ['j', 's', 'o', 'n']] := by
    rw [toList_documentName, Text.pieces_append _ (Number.not_mem_digits _ rfl)]
    rfl
  have hne : documentName file ≠ ".." := documentName_ne file (by simp)
  have hfront := Number.digits_ne_nil 10 file.number.toNat
  rw [isDocumentName, Volume.Path.extension?, hpieces]
  simp [hne, hfront]

theorem isFileName_documentName (file : FileId) : IsFileName (documentName file) where
  noSlash := by
    rw [toList_documentName, List.mem_append]
    rintro (h | h)
    · exact Number.not_mem_digits _ rfl h
    · simp at h
  notHere := by
    rw [Volume.isHere, Bool.or_eq_false_iff, beq_eq_false_iff_ne, beq_eq_false_iff_ne]
    exact ⟨documentName_ne file (by simp), documentName_ne file (by simp)⟩
  notAbove := documentName_ne file (by simp)

theorem Folder.isDirectoryPath (folder : Folder) : IsDirectoryPath folder.directory := by
  have hrelative : Volume.Path.isAbsolute "artifacts" = false := rfl
  have hends : ∃ front, folder.directory = front ++ "artifacts" := by
    rw [directory, join, hrelative, if_neg (by simp)]
    split
    · exact ⟨folder.base, rfl⟩
    · exact ⟨folder.base ++ "/", rfl⟩
  obtain ⟨front, hfront⟩ := hends
  rw [hfront]
  exact ⟨by simp, by simp⟩

/-! ## Disks that keep documents -/

variable {σ : Type} [Disk σ]

/-- A directory holds the documents of some files, and nothing else. -/
structure Stored (directory : String) (documents : FileId → Option (List UInt8)) (world : σ) : Prop where
  listed : ∃ names, Disk.names directory world = .ok names ∧
    ∀ name, name ∈ names ↔ ∃ file, documentName file = name ∧ (documents file).isSome
  content : ∀ file document, documents file = some document →
    Disk.content (join directory (documentName file)) world = .ok document

/-- Documents that are written can be read back, and a write that fails changes none. -/
structure KeepsDocuments (σ : Type) [Disk σ] (directory : String) : Prop where
  written : ∀ {documents : FileId → Option (List UInt8)} {file : FileId} {document : List UInt8}
    {world after : σ}, Stored directory documents world →
    Disk.write (join directory (documentName file)) document world = (.ok (), after) →
    Stored directory (Function.update documents file (some document)) after
  refused : ∀ {documents : FileId → Option (List UInt8)} {file : FileId} {document : List UInt8}
    {error : SystemError} {world after : σ}, Stored directory documents world →
    Disk.write (join directory (documentName file)) document world = (.error error, after) →
    Stored directory documents after
  /-- The directory is not made anew. -/
  made : ∀ {documents : FileId → Option (List UInt8)} {world : σ}, Stored directory documents world →
    ∃ after, Disk.makeDirectories directory world = (.ok (), after) ∧ Stored directory documents after

/-- A write to a volume puts the document at its place; a write that fails changes nothing. -/
theorem keepsDocuments_volume {directory : String} (hd : IsDirectoryPath directory) :
    KeepsDocuments Volume directory where
  written := by
    intro documents file document volume after hstored hwrite
    obtain ⟨names, hnames, hlisted⟩ := hstored.listed
    obtain ⟨there, hleads⟩ := Volume.leads_of_names hd hnames
    obtain ⟨hpath, hlong, hfree, rfl⟩ := Volume.write_join hleads (isFileName_documentName file)
      (Volume.settle_eq_ok_iff.1 hwrite)
    have hafter := hleads.put document hfree
    constructor
    · obtain ⟨before, hbefore, hmem⟩ := Volume.mem_names_iff hleads
      obtain rfl : before = names := Except.ok.inj (hbefore.symm.trans hnames)
      obtain ⟨names', hnames', hmem'⟩ := Volume.mem_names_iff hafter
      refine ⟨names', hnames', ?_⟩
      intro name
      rw [hmem', Volume.itemAt?_put]
      by_cases hname : name = documentName file
      · subst hname
        simp only [if_true, Option.isSome_some, true_iff]
        exact ⟨file, rfl, by simp⟩
      · rw [if_neg (by simpa using hname), ← hmem, hlisted]
        refine exists_congr fun other => and_congr_right fun hother => ?_
        have hne : other ≠ file := by
          rintro rfl
          exact hname hother.symm
        rw [Function.update_of_ne hne]
    · intro other otherDocument hother
      refine (Volume.content_join_iff hafter (isFileName_documentName other)).2 ?_
      rw [Volume.itemAt?_put]
      by_cases hne : other = file
      · subst hne
        rw [Function.update_self] at hother
        cases hother
        exact ⟨hpath, hlong, by simp⟩
      · rw [Function.update_of_ne hne] at hother
        have hplace : there ++ [documentName other] ≠ there ++ [documentName file] := by
          intro h
          exact hne (documentName_injective (by simpa using h))
        rw [if_neg hplace]
        exact (Volume.content_join_iff hleads (isFileName_documentName other)).1
          (hstored.content other otherDocument hother)
  refused := by
    intro documents file document error volume after hstored hwrite
    obtain rfl := Volume.of_settle_error hwrite
    exact hstored
  made := by
    intro documents volume hstored
    obtain ⟨names, hnames, -⟩ := hstored.listed
    obtain ⟨there, hleads⟩ := Volume.leads_of_names hd hnames
    have hmade := Volume.makeDirectories_of_leads hleads
    exact ⟨volume, Volume.settle_eq_ok_iff.2 hmade, hstored⟩

/-! ## Disks on which writes fail -/

/-- A disk on which some of the next writes fail. -/
structure Faulty (σ : Type) where
  world : σ
  /-- Which of the next writes fail. -/
  failing : List Bool := []
deriving Repr

namespace Faulty

def write (path : String) (content : List UInt8) : StateM (Faulty σ) (Except SystemError Unit) :=
  fun disk =>
    if disk.failing.headD false then
      (.error (.stated "No space left on device (os error 28)"),
        { disk with failing := disk.failing.tail })
    else
      let (result, after) := Disk.write path content disk.world
      (result, { world := after, failing := disk.failing.tail })

instance : Disk (Faulty σ) where
  status path disk := Disk.status path disk.world
  content path disk := Disk.content path disk.world
  names path disk := Disk.names path disk.world
  seek path position disk := Disk.seek path position disk.world
  readSome path position room := fun disk =>
    let (result, after) := Disk.readSome path position room disk.world
    (result, { disk with world := after })
  write path content := write path content
  makeDirectories path := fun disk =>
    let (result, after) := Disk.makeDirectories path disk.world
    (result, { disk with world := after })

variable {path : String} {content : List UInt8} {disk after : Faulty σ}

theorem of_write_ok (h : Disk.write path content disk = (.ok (), after)) :
    Disk.write path content disk.world = (.ok (), after.world) := by
  change write path content disk = _ at h
  unfold write at h
  split at h
  · cases h
  · cases hw : Disk.write path content disk.world with
    | mk result last =>
      rw [hw] at h
      cases h
      rfl

theorem of_write_error {error : SystemError} (h : Disk.write path content disk = (.error error, after)) :
    after.world = disk.world ∨ Disk.write path content disk.world = (.error error, after.world) := by
  change write path content disk = _ at h
  unfold write at h
  split at h
  · cases h
    exact .inl rfl
  · cases hw : Disk.write path content disk.world with
    | mk result last =>
      rw [hw] at h
      cases h
      exact .inr rfl

end Faulty

theorem stored_faulty {directory : String} {documents : FileId → Option (List UInt8)}
    {disk : Faulty σ} : Stored directory documents disk ↔ Stored directory documents disk.world :=
  ⟨fun h => ⟨h.listed, h.content⟩, fun h => ⟨h.listed, h.content⟩⟩

/-- **Documents are kept although some writes fail.** -/
theorem KeepsDocuments.faulty {directory : String} (h : KeepsDocuments σ directory) :
    KeepsDocuments (Faulty σ) directory where
  written := by
    intro documents file document disk after hstored hwrite
    exact stored_faulty.2 (h.written (stored_faulty.1 hstored) (Faulty.of_write_ok hwrite))
  refused := by
    intro documents file document error disk after hstored hwrite
    rw [stored_faulty] at hstored ⊢
    rcases Faulty.of_write_error hwrite with hsame | hworld
    · rw [hsame]
      exact hstored
    · exact h.refused hstored hworld
  made := by
    intro documents disk hstored
    obtain ⟨after, hmade, hafter⟩ := h.made (stored_faulty.1 hstored)
    refine ⟨{ disk with world := after }, ?_, stored_faulty.2 hafter⟩
    change ((Disk.makeDirectories directory disk.world).1,
      { disk with world := (Disk.makeDirectories directory disk.world).2 }) = _
    rw [hmade]

end Blackboard

end Hallmark
