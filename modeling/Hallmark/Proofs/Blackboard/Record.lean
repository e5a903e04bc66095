import Mathlib.Data.List.Basic
import Hallmark.Blackboard.Folder
import Hallmark.Proofs.Json.RoundTrip
import Hallmark.Proofs.Text.Utf8

/-!
# `Hallmark/Proofs/Blackboard/Record.lean` — documents read back

A document gives back the artifacts that it was written for, if the times in them do: a time is a number
of seconds, and not every number has a year that can be read. Main statement: `artifactsOf?_documentOf`.
-/

set_option autoImplicit false

namespace Hallmark

namespace Record

/-! ## Values of fields -/

theorem word?_nat (n : UInt64) : word? (Json.nat n.toNat) = some n := by
  have h : (n.toNat : Int) < Number.wordLimit := by exact_mod_cast n.toNat_lt
  simp [word?, Json.nat, intBetween?, h]

theorem byte?_nat (b : UInt8) : byte? (Json.nat b.toNat) = some b := by
  have h : (b.toNat : Int) < 256 := by
    have := b.toNat_lt
    omega
  simp [byte?, Json.nat, intBetween?, h]

theorem signed?_int (n : Int64) : signed? (.int n.toInt) = some n := by
  have hlow : -Number.signedLimit ≤ n.toInt := n.le_toInt
  have hhigh : n.toInt < Number.signedLimit := n.toInt_lt
  simp [signed?, intBetween?, hlow, hhigh]

variable {α : Type}

theorem list?_map {write : α → Json} {read? : Json → Option α} {xs : List α}
    (h : ∀ x ∈ xs, read? (write x) = some x) : list? read? (.array (xs.map write)) = some xs := by
  induction xs with
  | nil => rfl
  | cons x xs ih =>
    have hx := h x List.mem_cons_self
    have hxs := ih fun y hy => h y (List.mem_cons_of_mem x hy)
    rw [list?] at hxs ⊢
    rw [List.map_cons, List.mapM_cons, hx, hxs]
    rfl

/-- A record whose members are just its fields has all of them. -/
theorem fields?_object {names : List String} {members : List (String × Json)}
    (hnames : members.map Prod.fst = names) (hdistinct : names.Nodup) :
    fields? names (.object members) = some members := by
  have hall : (members.filter fun m => names.contains m.1) = members := by
    rw [List.filter_eq_self]
    intro m hm
    rw [List.contains_iff_mem, ← hnames]
    exact List.mem_map_of_mem hm
  rw [fields?, hall, if_pos (hnames ▸ hdistinct)]

end Record

theorem FileId.ofJson?_toJson (file : FileId) : FileId.ofJson? file.toJson = some file := by
  rw [FileId.toJson, FileId.ofJson?, Record.word?_nat, Option.map_some]

namespace Blackboard

open Record (fields?_object)

theorem AttributeValue.ofJson?_toJson (value : AttributeValue) :
    AttributeValue.ofJson? value.toJson = some value := by
  cases value with
  | text s =>
    rw [toJson, ofJson?, fields?_object (by rfl) (by decide)]
    rfl
  | integer n =>
    rw [toJson, ofJson?, fields?_object (by rfl) (by decide)]
    exact congrArg (Option.map AttributeValue.integer) (Record.signed?_int n)
  | bytes content =>
    rw [toJson, ofJson?, fields?_object (by rfl) (by decide)]
    exact congrArg (Option.map AttributeValue.bytes)
      (Record.list?_map fun b _ => Record.byte?_nat b)

theorem AttributeType.ofJson?_toJson (type : AttributeType) :
    AttributeType.ofJson? type.toJson = some type := by
  cases type <;> rfl

theorem Attribute.ofJson?_toJson {fact : Attribute}
    (h : Time.Timestamp.ofText? fact.createdAt.toText = some fact.createdAt) :
    Attribute.ofJson? fact.toJson = some fact := by
  have htype := AttributeType.ofJson?_toJson fact.type
  have hvalue := AttributeValue.ofJson?_toJson fact.value
  have htime : Record.time? (Record.ofTime fact.createdAt) = some fact.createdAt := by
    rw [Record.ofTime, Record.time?, Record.text?, Option.bind_some, h]
  rw [toJson, ofJson?, fields?_object (by rfl) (by decide)]
  simp [Record.Fields.required?, List.lookup_cons, Record.text?, htype, hvalue, htime]

/-- The members stand for what is written for an artifact, so that the number of its file is not unfolded:
it may be too large to count to. -/
theorem Artifact.ofJson?_object {idJson fileJson typeJson factsJson : Json} {artifact : Artifact}
    (hid : Record.text? idJson = some artifact.id)
    (hfile : FileId.ofJson? fileJson = some artifact.file)
    (htype : ArtifactType.ofJson? typeJson = some artifact.type)
    (hfacts : Record.list? Attribute.ofJson? factsJson = some artifact.attributes) :
    Artifact.ofJson? (.object [("id", idJson), ("file_id", fileJson), ("artifact_type", typeJson),
      ("attributes", factsJson)]) = some artifact := by
  rw [ofJson?, fields?_object (by rfl) (by decide)]
  simp [Record.Fields.required?, List.lookup_cons, hid, hfile, htype, hfacts]

theorem Artifact.ofJson?_toJson {artifact : Artifact}
    (h : ∀ fact ∈ artifact.attributes,
      Time.Timestamp.ofText? fact.createdAt.toText = some fact.createdAt) :
    Artifact.ofJson? artifact.toJson = some artifact := by
  have htype : ArtifactType.ofJson? artifact.type.toJson = some artifact.type := by
    cases artifact.type
    rfl
  have hfacts := Record.list?_map fun fact hfact => Attribute.ofJson?_toJson (h fact hfact)
  exact ofJson?_object rfl (FileId.ofJson?_toJson artifact.file) htype hfacts

theorem AttributeValue.isData_toJson (value : AttributeValue) : Json.IsData value.toJson := by
  cases value with
  | text s => exact .object (by simp [Json.IsData.text])
  | integer n => exact .object (by simp [Json.IsData.text, Json.IsData.int])
  | bytes content =>
    have hbytes : Json.IsData (.array (content.map fun b => Json.nat b.toNat)) := by
      refine .array fun j hj => ?_
      obtain ⟨b, -, rfl⟩ := List.mem_map.1 hj
      exact .int _
    exact .object (by simp [Json.IsData.text, hbytes])

theorem Attribute.isData_toJson (fact : Attribute) : Json.IsData fact.toJson := by
  have hvalue := fact.value.isData_toJson
  exact .object (by simp [Json.IsData.text, hvalue, AttributeType.toJson, Record.ofTime])

theorem Artifact.isData_toJson (artifact : Artifact) : Json.IsData artifact.toJson := by
  have hfacts : Json.IsData (.array (artifact.attributes.map Attribute.toJson)) := by
    refine .array fun j hj => ?_
    obtain ⟨fact, -, rfl⟩ := List.mem_map.1 hj
    exact fact.isData_toJson
  exact .object (by
    simp [Json.IsData.text, Json.IsData.int, hfacts, FileId.toJson, Json.nat, ArtifactType.toJson])

/-- **A document gives back the artifacts it was written for,** if their times can be read back. -/
theorem artifactsOf?_documentOf {artifacts : List Artifact}
    (h : ∀ artifact ∈ artifacts, ∀ fact ∈ artifact.attributes,
      Time.Timestamp.ofText? fact.createdAt.toText = some fact.createdAt) :
    artifactsOf? (documentOf artifacts) = some artifacts := by
  have hdata : Json.IsData (.array (artifacts.map Artifact.toJson)) := by
    refine .array fun j hj => ?_
    obtain ⟨artifact, -, rfl⟩ := List.mem_map.1 hj
    exact artifact.isData_toJson
  have hread := Json.ofChars?_indentedChars hdata
  have hrecords := Record.list?_map fun artifact ha => Artifact.ofJson?_toJson (h artifact ha)
  rw [artifactsOf?, documentOf, Json.indented, Text.Utf8.bytes, String.toList_ofList,
    Text.Utf8.decode?_encode, Option.bind_eq_bind, Option.bind_some, hread]
  exact hrecords

end Blackboard

end Hallmark
