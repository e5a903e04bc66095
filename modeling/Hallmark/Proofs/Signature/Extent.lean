import Mathlib.Algebra.Order.BigOperators.Group.List
import Hallmark.Proofs.Content.Cleaning
import Hallmark.Proofs.Signature.Bounds
import Hallmark.Proofs.Signature.Choice
import Hallmark.Proofs.Signature.Numeral

/-!
# `Hallmark/Proofs/Signature/Extent.lean` — how long messages and descriptions can get

Each span of a template is printed in a field that is no wider than the largest count, or as wide as the
value if this is longer, so a template multiplies its own length at most by that (`length_render_le`). What
entries of a signature say is their messages with a space between two of them, and what they found lies in
the buffer; so the tree of a signature bounds its descriptions (`extentOf`). Main statement:
`description_extent`.
-/

set_option autoImplicit false

namespace Hallmark.Signature

open Template (Cuts Span maxCount)

/-! ## One conversion -/

/-- The number of bytes of a value that was found; a number counts as none. -/
def MatchValue.size : MatchValue → Nat
  | .number _ _ => 0
  | .bytes data => data.length

theorem length_le_length_encode (cs : List Char) : cs.length ≤ (Text.Utf8.encode cs).length := by
  induction cs with
  | nil => exact Nat.le_refl 0
  | cons c cs ih =>
    have hpos := c.utf8Size_pos
    rw [Text.Utf8.encode_cons, List.length_append, String.length_utf8EncodeChar, List.length_cons]
    omega

theorem length_scrub_le (data : List UInt8) :
    (Text.Utf8.scrub Content.replacement data).length ≤ data.length :=
  Content.length_encode_scrub data ▸ length_le_length_encode _

theorem length_bytesForm_le (layout : Layout) (data : List UInt8) :
    (bytesForm layout data).length ≤ data.length := by
  unfold bytesForm
  cases layout.precision with
  | none => exact length_scrub_le data
  | some n => exact (length_scrub_le _).trans (List.take_sublist n data).length_le

/-- A number that fits a word has no more digits than a word has bits. -/
theorem length_digits_le {base n : Nat} (hbase : 1 < base) (h : n < Number.wordLimit) :
    (Number.digits base n).length ≤ 64 := by
  have hlimit : Number.wordLimit ≤ base ^ 64 := Nat.pow_le_pow_left hbase 64
  exact (Nat.length_toDigits_le_iff hbase (by decide)).2 (Nat.lt_of_lt_of_le h hlimit)

theorem natAbs_signed_lt (word : UInt64) (width : Nat) :
    (Number.signed word width).natAbs < Number.wordLimit := by
  unfold Number.signed
  split
  · have hlow := word.toInt64.le_toInt
    have hhigh := word.toInt64.toInt_lt
    simp only [Number.wordLimit]
    omega
  · next hwidth =>
    have hpos : 0 < Nat.pow 256 width := Nat.pow_pos (by decide)
    have hle : Nat.pow 256 width ≤ 256 ^ 7 := Nat.pow_le_pow_right (by decide) (by omega)
    have hlow := Int.le_bmod (x := (word.toNat : Int)) hpos
    have hhigh := Int.bmod_lt (x := (word.toNat : Int)) hpos
    simp only [Number.wordLimit]
    omega

theorem length_decimal_le {z : Int} (h : z.natAbs < Number.wordLimit) :
    (Number.decimal z).length ≤ 65 := by
  cases z with
  | ofNat n => exact Nat.le_succ_of_le (length_digits_le (by decide) h)
  | negSucc n => exact Nat.succ_le_succ (length_digits_le (by decide) h)

theorem length_numberForm_le {layout : Layout} {form : Char} {word : UInt64} {width : Nat}
    {body : List Char} {isNumber : Bool}
    (h : numberForm? layout form word width = some (body, isNumber)) : body.length ≤ maxCount := by
  have hsigned := length_decimal_le (natAbs_signed_lt word width)
  have hdigits : ∀ base, 1 < base → (Number.digits base word.toNat).length ≤ 64 :=
    fun base hbase => length_digits_le hbase word.toNat_lt
  have hupper : (Number.upperDigits 16 word.toNat).length ≤ 64 := by
    rw [Number.upperDigits, List.length_map]
    exact hdigits 16 (by decide)
  have hmarked : ∀ mark ds : List Char, mark.length ≤ 2 → ds.length ≤ 64 →
      (if layout.alternate then mark ++ ds else ds).length ≤ maxCount := by
    intro mark ds hmark hds
    split <;> simp only [List.length_append, maxCount] <;> omega
  cases hform : isForm form with
  | false =>
    rw [Template.numberForm?_eq_none hform] at h
    cases h
  | true =>
    simp only [isForm, Bool.or_eq_true, beq_iff_eq, or_assoc] at hform
    rcases hform with rfl | rfl | rfl | rfl | rfl | rfl | rfl | rfl <;>
      obtain ⟨rfl, -⟩ := Prod.mk.inj (Option.some.inj h)
    · exact hsigned.trans (by decide)
    · exact hsigned.trans (by decide)
    · exact (hdigits 10 (by decide)).trans (by decide)
    · exact hmarked _ _ (by decide) (hdigits 16 (by decide))
    · exact hmarked _ _ (by decide) hupper
    · exact hmarked _ _ (by decide) (hdigits 8 (by decide))
    · exact show 1 ≤ maxCount by decide
    · exact (hdigits 10 (by decide)).trans (by decide)

/-! ## Templates -/

/-- No field is wider than the largest count, or than the value. -/
theorem length_shown_le (value : MatchValue) (span : Span) :
    (span.shown value).length ≤ max maxCount value.size := by
  have hone : 1 ≤ max maxCount value.size := le_max_of_le_left (by decide)
  have htwo : 2 ≤ max maxCount value.size := le_max_of_le_left (by decide)
  cases span with
  | plain c | percent | unfinished a => exact hone
  | conversion a form =>
    have hwidth : a.layout.width ≤ maxCount := Nat.min_le_right _ _
    cases value with
    | number word width =>
      simp only [Span.shown, Span.piece, Piece.render]
      split
      · next body isNumber hform =>
        rw [Layout.length_pad]
        exact le_max_of_le_left (Nat.max_le.2 ⟨hwidth, length_numberForm_le hform⟩)
      · exact htwo
    | bytes data =>
      simp only [Span.shown, Span.piece, Piece.render]
      split
      · rw [Layout.length_pad]
        exact Nat.max_le.2 ⟨le_max_of_le_left hwidth,
          le_max_of_le_right (length_bytesForm_le a.layout data)⟩
      · exact htwo

theorem length_flatMap_le {α : Type} {f : α → List Char} {bound : Nat} {xs : List α}
    (h : ∀ x ∈ xs, (f x).length ≤ bound) : (xs.flatMap f).length ≤ xs.length * bound := by
  rw [List.length_flatMap]
  simpa using List.sum_le_card_nsmul (xs.map fun x => (f x).length) bound (by simpa using h)

/-- A template has a character for each of its spans, at least. -/
theorem Template.Cuts.length_le {template : List Char} {spans : List Span} (h : Cuts template spans) :
    spans.length ≤ template.length := by
  induction h with
  | nothing => exact Nat.le_refl 0
  | plain _ _ ih => exact Nat.succ_le_succ ih
  | percent _ ih =>
    simp only [List.length_cons]
    omega
  | conversion _ _ _ ih =>
    simp only [List.length_cons, List.length_append]
    omega
  | unfinished _ => exact Nat.succ_le_succ (Nat.zero_le _)

/-- **A template is printed in at most as many fields as it has characters.** -/
theorem length_render_le (template : List Char) (value : MatchValue) :
    (Template.render template value).length ≤ template.length * max maxCount value.size := by
  obtain ⟨spans, hcuts⟩ := Template.exists_cuts template
  calc (Template.render template value).length
      = (spans.flatMap (Span.shown value)).length := by rw [hcuts.render_eq]
    _ ≤ spans.length * max maxCount value.size :=
        length_flatMap_le fun span _ => length_shown_le value span
    _ ≤ template.length * max maxCount value.size := Nat.mul_le_mul_right _ hcuts.length_le

/-! ## Descriptions -/

/-- The most that an entry can add to a description of `room` bytes: a space and its message. -/
def Entry.extent (room : Nat) (entry : Entry) : Nat :=
  1 + entry.message.length * max maxCount room

/-- The most that a description by a signature can take. -/
def extentOf (tree : Tree Entry) (room : Nat) : Nat := (tree.preorder.map (Entry.extent room)).sum

theorem length_spaceBetween_le (text next : List Char) : (spaceBetween text next).length ≤ 1 := by
  unfold spaceBetween
  split <;> simp

theorem length_text_add_le (description : Description) (entry : Entry) (value : MatchValue) :
    (description.add entry value).text.length ≤ description.text.length + entry.extent value.size := by
  by_cases hm : entry.message = ""
  · rw [Description.text_add_silent hm]
    exact Nat.le_add_right _ _
  · have hlength : entry.message.toList.length = entry.message.length := String.length_toList
    by_cases hb : ['\\', 'b'] <+: entry.message.toList
    · obtain ⟨template, htemplate⟩ := hb
      have hmessage : entry.message.toList = '\\' :: 'b' :: template := htemplate.symm
      have hrender := length_render_le template value
      have hle : template.length ≤ entry.message.length := by
        rw [← hlength, hmessage, List.length_cons, List.length_cons]
        omega
      have hmul := Nat.mul_le_mul_right (max maxCount value.size) hle
      rw [Description.text_add_attached hmessage, List.length_append, Entry.extent]
      omega
    · have hrender := length_render_le entry.message.toList value
      have hspace := length_spaceBetween_le description.text
        (Template.render entry.message.toList value)
      rw [hlength] at hrender
      rw [Description.text_add_apart hm hb, List.length_append, List.length_append, Entry.extent]
      omega

theorem Entry.extent_mono {room more : Nat} (h : room ≤ more) (entry : Entry) :
    entry.extent room ≤ entry.extent more := by
  have hmax : max maxCount room ≤ max maxCount more := max_le_max_left maxCount h
  exact Nat.add_le_add_left (Nat.mul_le_mul_left _ hmax) 1

theorem length_text_ofMatched_le {entries : List (Entry × Match)} {room : Nat}
    (h : ∀ p ∈ entries, p.2.value.size ≤ room) :
    (Description.ofMatched entries).text.length ≤
      (entries.map fun p => p.1.extent room).sum := by
  induction entries using List.reverseRecOn with
  | nil => exact Nat.le_refl 0
  | append_singleton entries p ih =>
    have hbefore := ih fun q hq => h q (List.mem_append_left _ hq)
    have hlast := p.1.extent_mono (h p (by simp))
    have hadd := length_text_add_le (Description.ofMatched entries) p.1 p.2.value
    rw [Description.ofMatched_concat, List.map_append, List.sum_append, List.map_singleton,
      List.sum_singleton]
    omega

/-! ## The entries that a description is made of -/

variable {buffer : List UInt8}

theorem size_le_of_probe {entry : Entry} {parentStop : Nat} {found : Match}
    (h : entry.probe buffer parentStop = some found) : found.value.size ≤ buffer.length := by
  obtain ⟨offset, -, hlies⟩ := Entry.liesIn_probe h
  cases hvalue : found.value with
  | number word width => exact Nat.zero_le _
  | bytes data =>
    obtain ⟨start, -, hstop, -⟩ := hlies.bytes data hvalue
    have hle := hlies.stop_le
    show data.length ≤ buffer.length
    omega

theorem size_le_of_mem_matchedBelow {f : Forest Entry} {parentStop : Nat} :
    ∀ p ∈ matchedBelow buffer f parentStop, p.2.value.size ≤ buffer.length := by
  induction f generalizing parentStop with
  | empty =>
    intro p hp
    exact absurd hp List.not_mem_nil
  | grow root below after ihb iha =>
    intro p hp
    rw [matchedBelow] at hp
    cases List.mem_append.1 hp with
    | inr hafter => exact iha p hafter
    | inl hroot =>
      cases hprobe : root.probe buffer parentStop with
      | none => simp [hprobe] at hroot
      | some found =>
        simp only [hprobe] at hroot
        cases List.mem_cons.1 hroot with
        | inl heq => exact heq ▸ size_le_of_probe hprobe
        | inr hbelow => exact ihb p hbelow

/-- **A description is no longer than its signature allows.** -/
theorem length_describe?_le {tree : Tree Entry} {description : Description}
    (h : describe? tree buffer = some description) :
    description.text.length ≤ extentOf tree buffer.length := by
  rw [describe?_eq] at h
  obtain ⟨entries, hentries, rfl⟩ := Option.map_eq_some_iff.1 h
  obtain ⟨found, hfound, rfl⟩ := Option.map_eq_some_iff.1 hentries
  have hsize : ∀ p ∈ (tree.root, found) :: matchedBelow buffer tree.below found.stop,
      p.2.value.size ≤ buffer.length := by
    intro p hp
    cases List.mem_cons.1 hp with
    | inl heq => exact heq ▸ size_le_of_probe hfound
    | inr hbelow => exact size_le_of_mem_matchedBelow p hbelow
  have hsublist := ((sublist_matchedBelow buffer tree.below found.stop).cons_cons tree.root).map
    (Entry.extent buffer.length)
  have hsum := hsublist.sum_le_sum fun n _ => Nat.zero_le n
  have htext := length_text_ofMatched_le hsize
  rw [List.map_cons] at htext
  rw [List.map_cons, List.map_map] at hsum
  exact htext.trans hsum

/-- **No message grows without bound.** Every count is the number that the template writes, clamped to 1024;
a template is printed in at most as many characters as it has, each taken 1024 times or as often as the value
has bytes. So the tree of the signature that identifies a buffer bounds the description. -/
theorem description_extent (template : List Char) (value : MatchValue) :
    (∃ spans, Cuts template spans) ∧
    (∀ spans, Cuts template spans → Template.read template = spans.map Span.piece ∧
      ∀ a form, Span.conversion a form ∈ spans →
        a.layout.width = min (Nat.ofDigitChars 10 a.width 0) 1024 ∧
        a.layout.precision = a.precision.map fun ds => min (Nat.ofDigitChars 10 ds 0) 1024) ∧
    (Template.render template value).length ≤ template.length * max 1024 value.size ∧
    ∀ (database : Database) (buffer : List UInt8),
      ((∃ tree, database.WonBy buffer tree) ∨ database.identify buffer = Content.classify buffer) ∧
      ∀ tree, database.WonBy buffer tree →
        (database.identify buffer).description.length ≤
          (tree.preorder.map fun entry => 1 + entry.message.length * max 1024 buffer.length).sum := by
  refine ⟨Template.exists_cuts template, ?_, length_render_le template value, ?_⟩
  · intro spans hcuts
    exact ⟨hcuts.read_eq, fun a form _ => ⟨rfl, rfl⟩⟩
  · intro database buffer
    refine ⟨database.exists_wonBy buffer, ?_⟩
    intro tree hwon
    obtain ⟨description, hdescribe, hidentify⟩ := Database.identify_of_wonBy hwon
    rw [hidentify, String.length_ofList]
    exact length_describe?_le hdescribe

/-- A field of 2000 characters is cut to 1024; the two messages allow 15362 characters in all. -/
theorem description_extent_clamped :
    ∃ database tree a, Database.read "0 string AB [%2000s]\n>2 byte x \\b, %5d\n".toList = .ok database ∧
      database.WonBy [0x41, 0x42, 0x07] tree ∧ a.width = "2000".toList ∧
      Cuts "[%2000s]".toList [.plain '[', .conversion a 's', .plain ']'] ∧ a.layout.width = 1024 ∧
      (Template.render "[%2000s]".toList (.bytes [0x41, 0x42])).length ≤ 8192 ∧
      (database.identify [0x41, 0x42, 0x07]).description.length ≤ 15362 := by
  let a : Template.Adornment := { width := "2000".toList }
  have hcuts : Cuts "[%2000s]".toList [.plain '[', .conversion a 's', .plain ']'] :=
    .plain (by decide) <| .conversion (a := a) (by decide) (by decide) <| .plain (by decide) .nothing
  have hread : (Database.read "0 string AB [%2000s]\n>2 byte x \\b, %5d\n".toList).map
      (fun database => database.signatures.map fun tree =>
        (extentOf tree 3, (identifyBy? [0x41, 0x42, 0x07] tree).isSome)) =
      .ok [(15362, true)] := by decide +kernel
  obtain ⟨database, hdatabase, hvalues⟩ := map_eq_ok_iff.1 hread
  obtain ⟨tree, hsignatures, htree⟩ := List.map_eq_singleton_iff.1 hvalues
  obtain ⟨hextent, hsome⟩ := Prod.mk.inj htree
  obtain ⟨identification, hidentification⟩ := Option.isSome_iff_exists.1 hsome
  obtain ⟨description, hdescribe, htext, -⟩ := identifyBy?_eq_some_iff.1 hidentification
  have hwon : database.WonBy [0x41, 0x42, 0x07] tree :=
    ⟨[], [], hsignatures, by simp, description, hdescribe, htext⟩
  obtain ⟨-, hcounts, hrender, hdescriptions⟩ :=
    description_extent "[%2000s]".toList (.bytes [0x41, 0x42])
  have hwidth := ((hcounts _ hcuts).2 a 's' (by simp)).1
  have hlength := (hdescriptions database [0x41, 0x42, 0x07]).2 tree hwon
  exact ⟨database, tree, a, hdatabase, hwon, rfl, hcuts, hwidth.trans (by decide), hrender,
    hlength.trans hextent.le⟩

end Hallmark.Signature
