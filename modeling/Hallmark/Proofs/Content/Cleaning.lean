import Hallmark.Content.Label
import Hallmark.Proofs.Text.Utf8

/-!
# `Hallmark/Proofs/Content/Cleaning.lean` — which bytes cleaning keeps

A byte is kept if it lies in some part of the bytes that is the sequence of a character (`InCharacter`),
and replaced by one byte otherwise. Cleaning reads from the front, and goes on behind a byte that starts
no character; it loses no character by that, since none starts inside another (`character_cases`), and
what stands before a boundary has no effect on what stands behind it (`scrub_append`). Main statement:
`cleanText_bytewise`.
-/

set_option autoImplicit false

namespace Hallmark.Text.Utf8

/-! ## Scrubbing -/

section Scrub

variable {instead : Char}

theorem scrub_nil : scrub instead [] = [] := by rw [scrub]

theorem scrub_char (c : Char) (rest : List UInt8) :
    scrub instead (String.utf8EncodeChar c ++ rest) = c :: scrub instead rest := by
  have hhead := head?_utf8EncodeChar c rest
  obtain ⟨lead, tail, hbytes, -, -⟩ := utf8EncodeChar_eq_cons c
  rw [hbytes, List.cons_append] at hhead ⊢
  rw [scrub]
  split
  · next heq =>
    cases hhead.symm.trans heq
    rfl
  · next heq => cases hhead.symm.trans heq

theorem scrub_stray {b : UInt8} {rest : List UInt8} (h : head? (b :: rest) = none) :
    scrub instead (b :: rest) = instead :: scrub instead rest := by
  rw [scrub]
  split
  · next heq => cases h.symm.trans heq
  · rfl

/-- A text is kept. -/
theorem scrub_encode (cs : List Char) : scrub instead (encode cs) = cs := by
  induction cs with
  | nil => exact scrub_nil
  | cons c cs ih => rw [encode_cons, scrub_char, ih]

/-- Scrubbing goes on at a boundary as if nothing stood before it. -/
theorem scrub_append {after : List UInt8} (h : IsBoundary after) (before : List UInt8) :
    scrub instead (before ++ after) = scrub instead before ++ scrub instead after := by
  induction before using headInduction with
  | nil =>
    rw [scrub_nil]
    rfl
  | char c rest ih =>
    rw [List.append_assoc, scrub_char, scrub_char, ih]
    rfl
  | stray b rest hnone ih =>
    rw [scrub_stray hnone, List.cons_append, scrub_stray (head?_append_of_none hnone h), ih]
    rfl

theorem scrub_continuations {bs : List UInt8} (h : ∀ b ∈ bs, isContinuation b = true) :
    scrub instead bs = List.replicate bs.length instead := by
  induction bs with
  | nil => exact scrub_nil
  | cons b bs ih =>
    obtain ⟨hb, hbs⟩ := List.forall_mem_cons.1 h
    rw [scrub_stray (head?_of_isContinuation hb bs), ih hbs]
    rfl

/-- Each byte of a character that is cut short is replaced. -/
theorem scrub_take_utf8EncodeChar {c : Char} {k : Nat}
    (h : k < (String.utf8EncodeChar c).length) :
    scrub instead ((String.utf8EncodeChar c).take k) = List.replicate k instead := by
  have hnone := head?_take_utf8EncodeChar h
  have hlength : ((String.utf8EncodeChar c).take k).length = k := List.length_take_of_le (Nat.le_of_lt h)
  obtain ⟨lead, tail, hbytes, -, htail⟩ := utf8EncodeChar_eq_cons c
  rw [hbytes] at hnone hlength ⊢
  cases k with
  | zero => exact scrub_nil
  | succ k =>
    rw [List.take_succ_cons] at hnone hlength ⊢
    rw [scrub_stray hnone, scrub_continuations fun b hb => htail b (List.mem_of_mem_take hb),
      Nat.succ.inj hlength]
    rfl

end Scrub

/-! ## Bytes of characters -/

/-- The position lies in a part of the bytes that is the sequence of a character. -/
def InCharacter (bs : List UInt8) (i : Nat) : Prop :=
  ∃ before c after, bs = before ++ String.utf8EncodeChar c ++ after ∧
    before.length ≤ i ∧ i < before.length + (String.utf8EncodeChar c).length

/-- A character in bytes that start with one is that one, or stands behind it. -/
theorem character_cases {c d : Char} {rest before after : List UInt8}
    (h : String.utf8EncodeChar c ++ rest = before ++ String.utf8EncodeChar d ++ after) :
    before = [] ∧ c = d ∨
      ∃ between, before = String.utf8EncodeChar c ++ between ∧
        rest = between ++ String.utf8EncodeChar d ++ after := by
  rw [List.append_assoc] at h
  rcases ends_before_boundary (isBoundary_utf8EncodeChar_append d after) h with
    rfl | ⟨between, hbefore, hrest⟩
  · exact .inl ⟨rfl, (eq_of_utf8EncodeChar_append h).1⟩
  · refine .inr ⟨between, hbefore, ?_⟩
    rw [hrest, List.append_assoc]

theorem inCharacter_char_iff {c : Char} {rest : List UInt8} {i : Nat} :
    InCharacter (String.utf8EncodeChar c ++ rest) i ↔
      i < (String.utf8EncodeChar c).length ∨
        (String.utf8EncodeChar c).length ≤ i ∧
          InCharacter rest (i - (String.utf8EncodeChar c).length) := by
  constructor
  · rintro ⟨before, d, after, hbytes, hle, hlt⟩
    rcases character_cases hbytes with ⟨rfl, rfl⟩ | ⟨between, rfl, hrest⟩
    · left
      simpa using hlt
    · right
      rw [List.length_append] at hle hlt
      exact ⟨by omega, between, d, after, hrest, by omega, by omega⟩
  · rintro (hlt | ⟨hle, before, d, after, rfl, hbefore, hafter⟩)
    · exact ⟨[], c, rest, rfl, Nat.zero_le i, by simpa using hlt⟩
    · refine ⟨String.utf8EncodeChar c ++ before, d, after, by simp only [List.append_assoc], ?_, ?_⟩
      · rw [List.length_append]
        omega
      · rw [List.length_append]
        omega

theorem inCharacter_stray_iff {b : UInt8} {rest : List UInt8} (h : head? (b :: rest) = none)
    {i : Nat} : InCharacter (b :: rest) i ↔ ∃ j, i = j + 1 ∧ InCharacter rest j := by
  constructor
  · rintro ⟨before, d, after, hbytes, hle, hlt⟩
    cases before with
    | nil =>
      rw [hbytes, List.nil_append, head?_utf8EncodeChar] at h
      cases h
    | cons x before =>
      rw [List.cons_append, List.cons_append, List.cons.injEq] at hbytes
      rw [List.length_cons] at hle hlt
      exact ⟨i - 1, by omega, before, d, after, hbytes.2, by omega, by omega⟩
  · rintro ⟨j, rfl, before, d, after, rfl, hle, hlt⟩
    refine ⟨b :: before, d, after, rfl, Nat.succ_le_succ hle, ?_⟩
    rw [List.length_cons, Nat.succ_add]
    exact Nat.succ_lt_succ hlt

end Hallmark.Text.Utf8

namespace Hallmark.Content

open Text.Utf8

/-! ## Rounds -/

/-- Cleaning in rounds, which are counted: each keeps the longest valid text at the front and replaces the
byte behind it, until no byte is left behind. -/
inductive Rounds : List UInt8 → List Char → Nat → Prop where
  | last {bs : List UInt8} {cs : List Char} (h : split bs = (cs, [])) : Rounds bs cs 1
  | next {bs rest : List UInt8} {cs out : List Char} {b : UInt8} {n : Nat}
      (h : split bs = (cs, b :: rest)) (hrest : Rounds rest out n) :
      Rounds bs (cs ++ replacement :: out) (n + 1)

/-- One more character in front belongs to the first round. -/
theorem Rounds.char {bs : List UInt8} {out : List Char} {n : Nat} (h : Rounds bs out n) (c : Char) :
    Rounds (String.utf8EncodeChar c ++ bs) (c :: out) n := by
  cases h with
  | last hsplit =>
    apply Rounds.last
    rw [split_char, hsplit]
  | @next _ rest cs out b n hsplit hrest =>
    have hfirst : split (String.utf8EncodeChar c ++ bs) = (c :: cs, b :: rest) := by
      rw [split_char, hsplit]
    exact Rounds.next hfirst hrest

/-- The rounds come to an end: there is at most one more of them than there are bytes. -/
theorem exists_rounds (bs : List UInt8) :
    ∃ n, Rounds bs (scrub replacement bs) n ∧ n ≤ bs.length + 1 := by
  induction bs using headInduction with
  | nil =>
    refine ⟨1, .last ?_, Nat.le_refl 1⟩
    rw [scrub_nil]
    exact split_of_head?_eq_none rfl
  | char c rest ih =>
    obtain ⟨n, hrounds, hle⟩ := ih
    refine ⟨n, ?_, ?_⟩
    · rw [scrub_char]
      exact hrounds.char c
    · rw [List.length_append]
      omega
  | stray b rest hnone ih =>
    obtain ⟨n, hrounds, hle⟩ := ih
    refine ⟨n + 1, ?_, Nat.succ_le_succ hle⟩
    rw [scrub_stray hnone]
    exact .next (split_of_head?_eq_none hnone) hrounds

/-! ## Clean text -/

/-- The replacement is one byte. -/
theorem utf8EncodeChar_replacement : String.utf8EncodeChar replacement = [0x5E] := rfl

theorem bytes_cleanText (bs : List UInt8) :
    bytes (cleanText bs) = encode (scrub replacement bs) := by
  rw [bytes, cleanText, String.toList_ofList]

theorem length_encode_scrub (bs : List UInt8) :
    (encode (scrub replacement bs)).length = bs.length := by
  induction bs using headInduction with
  | nil =>
    rw [scrub_nil]
    rfl
  | char c rest ih => rw [scrub_char, encode_cons, List.length_append, List.length_append, ih]
  | stray b rest hnone ih =>
    rw [scrub_stray hnone, encode_cons, utf8EncodeChar_replacement, List.singleton_append,
      List.length_cons, List.length_cons, ih]

/-- What becomes of the byte at a position. -/
theorem getElem?_encode_scrub (bs : List UInt8) (i : Nat) :
    (InCharacter bs i → (encode (scrub replacement bs))[i]? = bs[i]?) ∧
    (¬ InCharacter bs i → i < bs.length → (encode (scrub replacement bs))[i]? = some 0x5E) := by
  induction bs using headInduction generalizing i with
  | nil => exact ⟨fun _ => by rw [scrub_nil]; rfl, fun _ h => absurd h (Nat.not_lt_zero i)⟩
  | char c rest ih =>
    rw [scrub_char, encode_cons, inCharacter_char_iff]
    rcases Nat.lt_or_ge i (String.utf8EncodeChar c).length with hlt | hge
    · rw [List.getElem?_append_left hlt, List.getElem?_append_left hlt]
      exact ⟨fun _ => rfl, fun h => absurd (.inl hlt) h⟩
    · obtain ⟨hin, hout⟩ := ih (i - (String.utf8EncodeChar c).length)
      rw [List.getElem?_append_right hge, List.getElem?_append_right hge, List.length_append]
      constructor
      · intro h
        exact hin (h.resolve_left (Nat.not_lt_of_le hge)).2
      · intro h hlength
        exact hout (fun hrest => h (.inr ⟨hge, hrest⟩)) (by omega)
  | stray b rest hnone ih =>
    rw [scrub_stray hnone, encode_cons, utf8EncodeChar_replacement, inCharacter_stray_iff hnone]
    cases i with
    | zero =>
      refine ⟨?_, fun _ _ => rfl⟩
      rintro ⟨j, hj, -⟩
      cases hj
    | succ i =>
      obtain ⟨hin, hout⟩ := ih i
      constructor
      · rintro ⟨j, hj, h⟩
        cases hj
        exact hin h
      · intro h hlength
        exact hout (fun hrest => h ⟨i, rfl, hrest⟩) (Nat.lt_of_succ_lt_succ hlength)

theorem cleanText_bytes (text : String) : cleanText (bytes text) = text := by
  rw [cleanText, bytes, scrub_encode, String.ofList_toList]

/-- A character that is cut short is replaced byte by byte, and what stands on either side of it is
cleaned as if it stood alone. -/
theorem cleanText_cut {c : Char} {k : Nat} (hk : k < (String.utf8EncodeChar c).length)
    (before : List UInt8) {after : List UInt8} (hafter : IsBoundary after) :
    cleanText (before ++ (String.utf8EncodeChar c).take k ++ after) =
      cleanText before ++ String.ofList (List.replicate k replacement) ++ cleanText after := by
  have hcut : IsBoundary ((String.utf8EncodeChar c).take k) := by
    have hboundary := isBoundary_utf8EncodeChar_append c []
    cases k with
    | zero => exact fun b hb => by cases hb
    | succ k =>
      rw [List.append_nil] at hboundary
      intro b hb
      rw [List.head?_take, if_neg (Nat.succ_ne_zero k)] at hb
      exact hboundary b hb
  simp only [cleanText]
  rw [scrub_append hafter, scrub_append hcut, scrub_take_utf8EncodeChar hk, String.ofList_append,
    String.ofList_append]

/-- **Cleaning keeps each byte that lies in a character and replaces each other byte by one byte.** It
comes to an end, and so it changes no text, changes nothing a second time, and replaces the bytes of a
character that is cut short alone. -/
theorem cleanText_bytewise (bs : List UInt8) :
    (∃ n, Rounds bs (cleanText bs).toList n ∧ n ≤ bs.length + 1) ∧
    (bytes (cleanText bs)).length = bs.length ∧
    (∀ i, InCharacter bs i → (bytes (cleanText bs))[i]? = bs[i]?) ∧
    (∀ i, ¬ InCharacter bs i → i < bs.length → (bytes (cleanText bs))[i]? = some 0x5E) ∧
    (∀ text, bytes text = bs → cleanText bs = text) ∧
    cleanText (bytes (cleanText bs)) = cleanText bs ∧
    ∀ c k after, k < (String.utf8EncodeChar c).length → IsBoundary after →
      cleanText (bs ++ (String.utf8EncodeChar c).take k ++ after) =
        cleanText bs ++ String.ofList (List.replicate k replacement) ++ cleanText after := by
  rw [bytes_cleanText]
  refine ⟨?_, length_encode_scrub bs, fun i => (getElem?_encode_scrub bs i).1,
    fun i => (getElem?_encode_scrub bs i).2, ?_, ?_, fun c k after hk => cleanText_cut hk bs⟩
  · rw [cleanText, String.toList_ofList]
    exact exists_rounds bs
  · rintro text rfl
    exact cleanText_bytes text
  · rw [← bytes_cleanText, cleanText_bytes]

/-- Of a euro sign that is cut short each byte is replaced; the letter behind it is kept, and the last
byte, which continues no sequence, is replaced. -/
theorem cleanText_bytewise_cut :
    ∃ bs, bs = [0x61] ++ (String.utf8EncodeChar '\u20ac').take 2 ++ [0xC3, 0xA9, 0xA9] ∧
      2 < (String.utf8EncodeChar '\u20ac').length ∧ IsBoundary [0xC3, 0xA9, 0xA9] ∧
      cleanText bs = cleanText [0x61] ++ "^^" ++ cleanText [0xC3, 0xA9, 0xA9] ∧
      InCharacter bs 4 ∧ (bytes (cleanText bs))[4]? = some 0xA9 ∧
      ¬ InCharacter bs 2 ∧ 2 < bs.length ∧ (bytes (cleanText bs))[2]? = some 0x5E ∧
      bytes "\u00e9" = [0xC3, 0xA9] ∧ cleanText [0xC3, 0xA9] = "\u00e9" := by
  let behind : List UInt8 := [0xC3, 0xA9, 0xA9]
  let bs : List UInt8 := [0x61] ++ (String.utf8EncodeChar '\u20ac').take 2 ++ behind
  obtain ⟨-, -, hkept, hreplaced, -⟩ := cleanText_bytewise bs
  obtain ⟨-, -, -, -, -, -, hcut⟩ := cleanText_bytewise [0x61]
  obtain ⟨-, -, -, -, htext, -⟩ := cleanText_bytewise [0xC3, 0xA9]
  have hboundary : IsBoundary behind := by
    intro b hb
    obtain rfl : 0xC3 = b := Option.some.inj hb
    rfl
  have hin : InCharacter bs 4 := ⟨[0x61, 0xE2, 0x82], '\u00e9', [0xA9], rfl, by decide, by decide⟩
  have hout : ¬ InCharacter bs 2 := by
    intro h
    have hbyte := hkept 2 h
    revert hbyte
    decide +kernel
  exact ⟨bs, rfl, by decide, hboundary, hcut '\u20ac' 2 behind (by decide) hboundary, hin,
    hkept 4 hin, hout, by decide, hreplaced 2 hout (by decide), rfl, htext "\u00e9" rfl⟩

end Hallmark.Content
