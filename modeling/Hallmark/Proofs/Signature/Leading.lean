import Hallmark.Proofs.Number.Integer
import Hallmark.Proofs.Signature.Choice
import Hallmark.Proofs.Signature.Comparison
import Hallmark.Proofs.Signature.Description
import Hallmark.Proofs.Signature.Growth
import Hallmark.Proofs.Signature.Template

/-!
# `Hallmark/Proofs/Signature/Leading.lean` — what the first bytes of a buffer decide

Some first bytes rule a signature out, whatever follows: its pattern or its number is refused for one of
them (`Entry.isBroken`, a computable check). The check is one-sided, and a signature that it passes over may
still fail. Only the signatures that are not ruled out matter for a buffer that starts so
(`Database.candidates`), and the first of them that matches announces the buffer: its own message stands at
the front of the description (`Database.announces`). Main statement: `Database.announces`.
-/

set_option autoImplicit false

namespace Hallmark.Signature

variable {flags : PatternFlags} {pattern start : List UInt8}

/-! ## Refusals that the first bytes decide -/

/-- One of the first bytes is not the one that the pattern has there. A flexible blank that takes all the
bytes there are leaves it open. -/
def Pattern.isBroken (flags : PatternFlags) : (pattern start : List UInt8) → Bool
  | [], _ => false
  | _ :: _, [] => false
  | p :: pattern, b :: start =>
    if flags.hasFlexibleBlanks && p == 0x20 then
      isBroken flags pattern ((b :: start).dropWhile Text.isBlankByte)
    else !flags.sameByte p b || isBroken flags pattern start

/-- The first bytes of the number are not those of the value. Only most significant bytes that come first
and are not masked are compared. -/
def NumberFormat.isBroken (format : NumberFormat) (value : UInt64) (start : List UInt8) : Bool :=
  format.order == .big && format.mask == none && decide (format.width ≤ 8) &&
    Number.ofBigEndian (start.take format.width) !=
      value.toNat / 256 ^ (format.width - (start.take format.width).length)

/-- The first bytes refuse the entry, a test for equality at a place among them. -/
def Entry.isBroken (entry : Entry) (start : List UInt8) : Bool :=
  match entry.offset, entry.type, entry.test with
  | .absolute position, .text flags, .text .equal pattern =>
    decide (position.toNat ≤ start.length) && Pattern.isBroken flags pattern (start.drop position.toNat)
  | .absolute position, .number format, .number .equal value =>
    decide (position.toNat ≤ start.length) && format.isBroken value (start.drop position.toNat)
  | _, _, _ => false

theorem Pattern.isBroken_nil (flags : PatternFlags) (pattern : List UInt8) :
    isBroken flags pattern [] = false := by
  cases pattern <;> rfl

theorem Pattern.not_isSome_match?_of_isBroken (h : isBroken flags pattern start = true)
    (rest : List UInt8) : ¬ (match? flags pattern (start ++ rest)).isSome := by
  fun_induction isBroken flags pattern start with
  | case1 => cases h
  | case2 => cases h
  | case3 p pattern b start hp ih =>
    obtain ⟨hflexible, hblank⟩ := (Bool.and_eq_true _ _).mp hp
    obtain rfl := eq_of_beq hblank
    rw [isSome_match?_blank_iff hflexible, List.dropWhile_append]
    rintro ⟨-, hrest⟩
    split at hrest
    · next hempty =>
      rw [List.isEmpty_iff.1 hempty, isBroken_nil] at h
      cases h
    · exact ih h hrest
  | case4 p pattern b start hp ih =>
    have hrigid : ¬ flags.IsFlexible p := by simpa [PatternFlags.IsFlexible] using hp
    rw [List.cons_append, isSome_match?_byte_iff hrigid]
    rintro ⟨_, _, ⟨⟩, hsame, hrest⟩
    rw [hsame, Bool.not_true, Bool.false_or] at h
    exact ih h hrest

theorem probeNumber_of_isBroken {format : NumberFormat} {value : UInt64} {offset : Nat}
    (hoffset : offset ≤ start.length) (h : format.isBroken value (start.drop offset) = true)
    (rest : List UInt8) : probeNumber format .equal value (start ++ rest) offset = none := by
  simp only [NumberFormat.isBroken, Bool.and_eq_true, beq_iff_eq, decide_eq_true_eq, bne_iff_ne] at h
  obtain ⟨⟨⟨horder, hmask⟩, hwidth⟩, hdiffer⟩ := h
  unfold probeNumber
  split
  · next hroom =>
    rw [List.length_append] at hroom
    rw [List.drop_append_of_le_length hoffset, List.take_append]
    have hlength := List.length_drop (i := offset) (l := start)
    generalize start.drop offset = front at hdiffer hlength ⊢
    have hback : (rest.take (format.width - front.length)).length =
        format.width - (front.take format.width).length := by
      rw [List.length_take, List.length_take]
      omega
    generalize rest.take (format.width - front.length) = back at hback ⊢
    have hwhole : (front.take format.width ++ back).length = format.width := by
      rw [List.length_append, hback, List.length_take]
      omega
    have hword : (format.word (front.take format.width ++ back)).toNat =
        Number.ofBigEndian (front.take format.width ++ back) := by
      rw [NumberFormat.toNat_word hwidth hwhole, NumberFormat.number, hmask, horder,
        Number.ofBigEndian_eq]
      rfl
    refine if_neg fun hequal => hdiffer ?_
    rw [← eq_of_beq hequal, hword, ← hback, Number.ofBigEndian_append_div]
  · rfl

/-- **What the first bytes refuse does not match any buffer that starts with them.** -/
theorem Entry.probe_of_isBroken {entry : Entry} (h : entry.isBroken start = true) (rest : List UInt8)
    (parentStop : Nat) : entry.probe (start ++ rest) parentStop = none := by
  unfold Entry.isBroken at h
  split at h
  · next position flags pattern hoffset htype htest =>
    obtain ⟨hposition, hbroken⟩ := (Bool.and_eq_true _ _).mp h
    have hresolve : entry.offset.resolve parentStop = some position.toNat := by rw [hoffset]; rfl
    have hle := of_decide_eq_true hposition
    rw [Entry.probe_text hresolve htype htest, ← Option.not_isSome_iff_eq_none,
      isSome_probeText_equal (by rw [List.length_append]; omega), List.drop_append_of_le_length hle]
    exact Pattern.not_isSome_match?_of_isBroken hbroken rest
  · next position format value hoffset htype htest =>
    obtain ⟨hposition, hbroken⟩ := (Bool.and_eq_true _ _).mp h
    have hresolve : entry.offset.resolve parentStop = some position.toNat := by rw [hoffset]; rfl
    rw [Entry.probe_number hresolve htype htest]
    exact probeNumber_of_isBroken (of_decide_eq_true hposition) hbroken rest
  · cases h

/-! ## What the root says -/

section Says

variable {tree : Tree Entry} {buffer rest : List UInt8}

theorem Description.prefix_add (description : Description) (entry : Entry) (value : MatchValue) :
    description.text <+: (description.add entry value).text := by
  rw [Description.add]
  split
  · exact List.prefix_rfl
  · exact List.prefix_append _ _
  · simp only [List.append_assoc]
    exact List.prefix_append _ _

theorem Description.prefix_foldl_add (description : Description) (entries : List (Entry × Match)) :
    description.text <+: (entries.foldl (fun d p => d.add p.1 p.2.value) description).text := by
  induction entries generalizing description with
  | nil => exact List.prefix_rfl
  | cons p entries ih => exact (description.prefix_add p.1 p.2.value).trans (ih _)

/-- The root has a message that is printed as it stands, and no entry below it has a MIME type. -/
structure SpeaksAtRoot (tree : Tree Entry) : Prop where
  nonempty : tree.root.message ≠ ""
  literal : '%' ∉ tree.root.message.toList
  apart : ¬ ['\\', 'b'] <+: tree.root.message.toList
  silent : ∀ entry ∈ tree.below.preorder, entry.mime = none

instance (tree : Tree Entry) : Decidable (SpeaksAtRoot tree) :=
  decidable_of_iff
    (tree.root.message ≠ "" ∧ '%' ∉ tree.root.message.toList ∧
      ¬ ['\\', 'b'] <+: tree.root.message.toList ∧ ∀ entry ∈ tree.below.preorder, entry.mime = none)
    ⟨fun h => ⟨h.1, h.2.1, h.2.2.1, h.2.2.2⟩, fun h => ⟨h.nonempty, h.literal, h.apart, h.silent⟩⟩

/-- Whatever matches below, the message of the root comes first and its MIME type stays. -/
theorem SpeaksAtRoot.describe? (h : SpeaksAtRoot tree) (hroot : (tree.root.probe buffer 0).isSome) :
    ∃ description, describe? tree buffer = some description ∧
      tree.root.message.toList <+: description.text ∧ description.mime = tree.root.mime := by
  obtain ⟨found, hfound⟩ := Option.isSome_iff_exists.1 hroot
  refine ⟨_, by rw [describe?_eq, matched?, hfound]; rfl, ?_, ?_⟩
  · have hfirst : ((({} : Description).add tree.root found.value)).text = tree.root.message.toList := by
      rw [Description.text_add_apart h.nonempty h.apart, Template.render_of_not_mem h.literal]
      rfl
    rw [← hfirst]
    exact Description.prefix_foldl_add _ _
  · have hbelow : (matchedBelow buffer tree.below found.stop).filterMap (fun p => p.1.mime) = [] := by
      rw [List.filterMap_eq_nil_iff]
      intro p hp
      exact h.silent p.1
        ((sublist_matchedBelow buffer tree.below found.stop).mem (List.mem_map_of_mem hp))
    rw [Description.mime_ofMatched, List.filterMap_cons, hbelow]
    cases tree.root.mime <;> rfl

end Says

/-! ## Candidates -/

/-- A description starts with a message, and the MIME type is the one that goes with it. -/
structure Announces (identification : Identification) (message : String) (mime : Option String) :
    Prop where
  description : message.toList <+: identification.description.toList
  mime : identification.mime = mime

/-- The signatures that the first bytes do not rule out, in the order in which they are tried. -/
def Database.candidates (database : Database) (start : List UInt8) : List (Tree Entry) :=
  database.signatures.filter fun tree => !tree.root.isBroken start

theorem identifyBy?_of_probe {tree : Tree Entry} {buffer : List UInt8}
    (h : tree.root.probe buffer 0 = none) : identifyBy? buffer tree = none := by
  simp [identifyBy?, describe?, h]

theorem Database.findSome?_candidates (database : Database) (start rest : List UInt8) :
    (database.candidates start).findSome? (identifyBy? (start ++ rest)) =
      database.signatures.findSome? (identifyBy? (start ++ rest)) := by
  refine findSome?_filter_of fun tree _ hbroken => identifyBy?_of_probe ?_
  exact Entry.probe_of_isBroken (by simpa using hbroken) rest 0

/-- **The first candidate that matches announces the buffer.** -/
theorem Database.announces {database : Database} {before after : List (Tree Entry)} {tree : Tree Entry}
    {rest : List UInt8} (hcandidates : database.candidates start = before ++ tree :: after)
    (hbefore : ∀ other ∈ before, other.root.probe (start ++ rest) 0 = none)
    (hroot : (tree.root.probe (start ++ rest) 0).isSome) (hspeaks : SpeaksAtRoot tree) :
    Announces (database.identify (start ++ rest)) tree.root.message tree.root.mime := by
  obtain ⟨description, hdescribe, hfront, hmime⟩ := hspeaks.describe? hroot
  have hne : description.text ≠ [] := by
    rintro hempty
    rw [hempty, List.prefix_nil] at hfront
    exact hspeaks.nonempty (by simpa using hfront)
  have hfind : database.signatures.findSome? (identifyBy? (start ++ rest)) =
      some ⟨String.ofList description.text, description.mime⟩ := by
    rw [← Database.findSome?_candidates, hcandidates, List.findSome?_append,
      List.findSome?_eq_none_iff.2 fun other hother => identifyBy?_of_probe (hbefore other hother),
      Option.none_or, List.findSome?_cons, identifyBy?_eq_some_iff.2 ⟨description, hdescribe, hne, rfl⟩]
  rw [Database.identify, hfind]
  exact ⟨by simpa using hfront, hmime⟩

end Hallmark.Signature
