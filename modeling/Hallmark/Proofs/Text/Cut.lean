import Hallmark.Proofs.Text.Utf8

/-!
# `Hallmark/Proofs/Text/Cut.lean` — texts that are cut at a byte

The bytes of a text can be cut anywhere, also inside a character. What is left are whole characters and
the start of one more (`exists_cut`), which is no character by itself. `isCutShort` tells such a start from
other bytes (`isCutShort_iff`), because each start that it accepts can be completed. So bytes can be read
in one way only as whole characters and a start (`isCutText_iff`), and what is a text up to a start of
a character stays one if it is cut again (`IsCutText.take`).
-/

set_option autoImplicit false

namespace Hallmark.Text.Utf8

/-! ## Starts of characters -/

/-- The bytes are a start of the sequence of some character: not empty, and not the whole of it. -/
def IsStart (bs : List UInt8) : Prop :=
  ∃ c k, 0 < k ∧ k < (String.utf8EncodeChar c).length ∧ bs = (String.utf8EncodeChar c).take k

theorem IsStart.head?_eq_none {bs : List UInt8} (h : IsStart bs) : head? bs = none := by
  obtain ⟨c, k, -, hk, rfl⟩ := h
  exact head?_take_utf8EncodeChar hk

/-- What more bytes complete to a character is a start of it. -/
theorem IsStart.of_head? {bs : List UInt8} (more : List UInt8) {c : Char} (hbs : bs ≠ [])
    (hmore : more ≠ []) (h : head? (bs ++ more) = some (c, [])) : IsStart bs := by
  have hbytes := eq_append_of_head? h
  rw [List.append_nil] at hbytes
  refine ⟨c, bs.length, List.length_pos_iff.2 hbs, ?_, ?_⟩
  · have hpos := List.length_pos_iff.2 hmore
    rw [← hbytes, List.length_append]
    omega
  · rw [← hbytes, List.take_left]

/-- A start that is cut again is a start, or nothing. -/
theorem IsStart.take {bs : List UInt8} (h : IsStart bs) (n : Nat) :
    bs.take n = [] ∨ IsStart (bs.take n) := by
  obtain ⟨c, k, hpos, hk, rfl⟩ := h
  rw [List.take_take]
  cases n with
  | zero =>
    left
    rw [Nat.zero_min, List.take_zero]
  | succ n => exact .inr ⟨c, min (n + 1) k, by omega, by omega, rfl⟩

/-- The lead bytes by the least number of bytes that they start. -/
theorem le_width_iff {a : UInt8} :
    (2 ≤ width a ↔ 0xC2 ≤ a.toNat ∧ a.toNat < 0xF5) ∧ (3 ≤ width a ↔ 0xE0 ≤ a.toNat ∧ a.toNat < 0xF5) ∧
    (4 ≤ width a ↔ 0xF0 ≤ a.toNat ∧ a.toNat < 0xF5) := by
  simp only [width, UInt8.lt_iff_toNat_lt, UInt8.reduceToNat]
  grind

/-- After each byte there is one that can be the second. -/
theorem exists_isSecond (a : UInt8) : ∃ b, isSecond a b = true := by
  by_cases hthree : a.toNat = 0xE0
  · refine ⟨0xA0, isSecond_iff.2 ?_⟩
    simp [hthree]
  by_cases hfour : a.toNat = 0xF0
  · refine ⟨0x90, isSecond_iff.2 ?_⟩
    simp [hfour]
  · refine ⟨0x80, isSecond_iff.2 ?_⟩
    simp [hthree, hfour]

theorem isStart_of_isCutShort {bs : List UInt8} (h : isCutShort bs = true) : IsStart bs := by
  have hcontinues : isContinuation 0x80 = true := rfl
  unfold isCutShort at h
  split at h
  · next a =>
    obtain ⟨hlow, hhigh⟩ := le_width_iff.1.1 (of_decide_eq_true h)
    obtain ⟨b, hb⟩ := exists_isSecond a
    rcases Nat.lt_or_ge a.toNat 0xE0 with htwo | hmore
    · exact .of_head? [b] (by simp) (by simp) (head?_two [] ⟨hlow, htwo⟩ hb)
    rcases Nat.lt_or_ge a.toNat 0xF0 with hthree | hfour
    · exact .of_head? [b, 0x80] (by simp) (by simp)
        (head?_three [] ⟨hmore, hthree⟩ hb hcontinues)
    · exact .of_head? [b, 0x80, 0x80] (by simp) (by simp)
        (head?_four [] ⟨hfour, hhigh⟩ hb hcontinues hcontinues)
  · next a b =>
    rw [Bool.and_eq_true] at h
    obtain ⟨hlow, hhigh⟩ := le_width_iff.2.1.1 (of_decide_eq_true h.1)
    rcases Nat.lt_or_ge a.toNat 0xF0 with hthree | hfour
    · exact .of_head? [0x80] (by simp) (by simp)
        (head?_three [] ⟨hlow, hthree⟩ h.2 hcontinues)
    · exact .of_head? [0x80, 0x80] (by simp) (by simp)
        (head?_four [] ⟨hfour, hhigh⟩ h.2 hcontinues hcontinues)
  · next a b c =>
    rw [Bool.and_eq_true, Bool.and_eq_true] at h
    obtain ⟨⟨hwidth, hb⟩, hc⟩ := h
    exact .of_head? [0x80] (by simp) (by simp)
      (head?_four [] (le_width_iff.2.2.1 (of_decide_eq_true hwidth)) hb hc hcontinues)
  · cases h

/-- The bytes of a character, by their number. -/
theorem utf8EncodeChar_cases (x : Char) :
    (∃ a, String.utf8EncodeChar x = [a]) ∨
    (∃ a b, String.utf8EncodeChar x = [a, b] ∧ width a = 2) ∨
    (∃ a b c, String.utf8EncodeChar x = [a, b, c] ∧ width a = 3 ∧ isSecond a b = true) ∨
    ∃ a b c d, String.utf8EncodeChar x = [a, b, c, d] ∧ width a = 4 ∧ isSecond a b = true ∧
      isContinuation c = true := by
  have h := head?_utf8EncodeChar x []
  rw [List.append_nil] at h
  generalize String.utf8EncodeChar x = bs at h ⊢
  unfold head? at h
  split at h
  · cases h
  next a tail =>
  split at h
  · obtain ⟨-, rfl⟩ := Prod.mk.inj (Option.some.inj h)
    exact .inl ⟨a, rfl⟩
  · next b rest hwidth =>
    simp only [Option.ite_none_right_eq_some, Option.some.injEq, Prod.mk.injEq] at h
    obtain ⟨-, -, rfl⟩ := h
    exact .inr (.inl ⟨a, b, rfl, hwidth⟩)
  · next b c rest hwidth =>
    simp only [Option.ite_none_right_eq_some, Option.some.injEq, Prod.mk.injEq,
      Bool.and_eq_true] at h
    obtain ⟨⟨hb, -⟩, -, rfl⟩ := h
    exact .inr (.inr (.inl ⟨a, b, c, rfl, hwidth, hb⟩))
  · next b c d rest hwidth =>
    simp only [Option.ite_none_right_eq_some, Option.some.injEq, Prod.mk.injEq,
      Bool.and_eq_true] at h
    obtain ⟨⟨⟨hb, hc⟩, -⟩, -, rfl⟩ := h
    exact .inr (.inr (.inr ⟨a, b, c, d, rfl, hwidth, hb, hc⟩))
  · cases h

/-- **A sequence is taken for one that is cut short just if it is a start of a character.** -/
theorem isCutShort_iff {bs : List UInt8} : isCutShort bs = true ↔ IsStart bs := by
  refine ⟨isStart_of_isCutShort, ?_⟩
  rintro ⟨x, k, hpos, hk, rfl⟩
  rcases utf8EncodeChar_cases x with
    ⟨a, hbytes⟩ | ⟨a, b, hbytes, hwidth⟩ | ⟨a, b, c, hbytes, hwidth, hb⟩ |
      ⟨a, b, c, d, hbytes, hwidth, hb, hc⟩
  all_goals
    rw [hbytes] at hk ⊢
    simp only [List.length_cons, List.length_nil] at hk
  · omega
  · obtain rfl : k = 1 := by omega
    simp [isCutShort, hwidth]
  · obtain rfl | rfl : k = 1 ∨ k = 2 := by omega
    · simp [isCutShort, hwidth]
    · simp [isCutShort, hwidth, hb]
  · obtain rfl | rfl | rfl : k = 1 ∨ k = 2 ∨ k = 3 := by omega
    · simp [isCutShort, hwidth]
    · simp [isCutShort, hwidth, hb]
    · simp [isCutShort, hwidth, hb, hc]

/-! ## Cutting a text -/

/-- **A text that is cut before its end is cut inside a character, or right before one.** -/
theorem exists_cut (cs : List Char) {n : Nat} (h : n < (encode cs).length) :
    ∃ before c after k, cs = before ++ c :: after ∧ k < (String.utf8EncodeChar c).length ∧
      n = (encode before).length + k ∧
      (encode cs).take n = encode before ++ (String.utf8EncodeChar c).take k := by
  induction cs generalizing n with
  | nil => exact absurd h (Nat.not_lt_zero n)
  | cons x xs ih =>
    rw [encode_cons] at h ⊢
    rcases Nat.lt_or_ge n (String.utf8EncodeChar x).length with hlt | hge
    · refine ⟨[], x, xs, n, rfl, hlt, (Nat.zero_add n).symm, ?_⟩
      rw [List.take_append_of_le_length (Nat.le_of_lt hlt)]
      rfl
    · rw [List.length_append] at h
      obtain ⟨before, c, after, k, rfl, hk, hn, htake⟩ :=
        ih (n := n - (String.utf8EncodeChar x).length) (by omega)
      refine ⟨x :: before, c, after, k, rfl, hk, ?_, ?_⟩
      · rw [encode_cons, List.length_append]
        omega
      · rw [List.take_append, List.take_of_length_le hge, htake, encode_cons, List.append_assoc]

/-- A start of a text that ends before the end of a character does not hold it. -/
theorem prefix_of_length_encode_lt {other before after : List Char} {c : Char}
    (hother : other <+: before ++ c :: after)
    (h : (encode other).length < (encode before).length + (String.utf8EncodeChar c).length) :
    other <+: before := by
  rcases List.prefix_or_prefix_of_prefix hother (List.prefix_append before (c :: after)) with
    hstart | ⟨more, hmore⟩
  · exact hstart
  · cases more with
    | nil =>
      rw [List.append_nil] at hmore
      subst hmore
      exact List.prefix_refl before
    | cons d more =>
      exfalso
      obtain ⟨rest, hrest⟩ := hother
      rw [← hmore, List.append_assoc] at hrest
      obtain ⟨rfl, -⟩ := List.cons.inj (List.append_cancel_left hrest)
      rw [← hmore, encode_append, encode_cons, List.length_append, List.length_append] at h
      omega

/-! ## Texts up to a start of a character -/

/-- The bytes are those of characters with a property, and then, it may be, a start of one more
character. -/
def IsCutText (P : Char → Prop) (bs : List UInt8) : Prop :=
  ∃ cs tail, bs = encode cs ++ tail ∧ (tail = [] ∨ IsStart tail) ∧ ∀ c ∈ cs, P c

/-- There is only one way to read bytes as such a text. -/
theorem isCutText_iff {P : Char → Prop} {bs : List UInt8} :
    IsCutText P bs ↔ ((split bs).2 = [] ∨ IsStart (split bs).2) ∧ ∀ c ∈ (split bs).1, P c := by
  constructor
  · rintro ⟨cs, tail, rfl, htail, hcs⟩
    have hnone : head? tail = none := by
      rcases htail with rfl | hstart
      · rfl
      · exact hstart.head?_eq_none
    rw [split_encode_append hnone]
    exact ⟨htail, hcs⟩
  · intro ⟨htail, hcs⟩
    exact ⟨(split bs).1, (split bs).2, (encode_split bs).symm, htail, hcs⟩

/-- **Such a text can be cut anywhere.** -/
theorem IsCutText.take {P : Char → Prop} {bs : List UInt8} (h : IsCutText P bs) (n : Nat) :
    IsCutText P (bs.take n) := by
  obtain ⟨cs, tail, rfl, htail, hcs⟩ := h
  rcases Nat.lt_or_ge n (encode cs).length with hlt | hge
  · obtain ⟨before, c, after, k, rfl, hk, -, htake⟩ := exists_cut cs hlt
    refine ⟨before, (String.utf8EncodeChar c).take k, ?_, ?_, ?_⟩
    · rw [List.take_append_of_le_length (Nat.le_of_lt hlt), htake]
    · cases k with
      | zero => exact .inl rfl
      | succ k => exact .inr ⟨c, k + 1, Nat.succ_pos k, hk, rfl⟩
    · intro x hx
      exact hcs x (List.mem_append_left _ hx)
  · refine ⟨cs, tail.take (n - (encode cs).length), ?_, ?_, hcs⟩
    · rw [List.take_append, List.take_of_length_le hge]
    · rcases htail with rfl | hstart
      · exact .inl List.take_nil
      · exact hstart.take _

end Hallmark.Text.Utf8
