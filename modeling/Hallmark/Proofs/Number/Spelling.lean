import Mathlib.Data.List.Forall2
import Mathlib.Data.Nat.Digits.Lemmas
import Mathlib.Tactic.Ring
import Hallmark.Proofs.Number.Decimal
import Hallmark.Proofs.Number.Integer

/-!
# `Hallmark/Proofs/Number/Spelling.lean` — how literals are spelt

A literal is one sign at most and a magnitude, and the start of the magnitude says in which base its digits
are (`IsLiteral`). The reader is not as strict: the digits may have one more plus sign in front
(`HasSurplusPlus`), after the base if it is written, and digits after it are decimal whether or not they
start with a zero. No text has both forms (`IsLiteral.not_surplus`), and the integer of a literal is the only
one (`IsLiteral.unique`). Main statement: what is read has one of the two forms (`literal?_eq_some_iff`).
-/

set_option autoImplicit false

namespace Hallmark.Number

/-! ## Digits -/

/-- A character stands for a digit of a base. Letters come after the nine, in either case. -/
def IsDigit (base : Nat) (c : Char) (d : Nat) : Prop :=
  d < base ∧ (c = Nat.digitChar d ∨ c = (Nat.digitChar d).toUpper)

/-- One or more digits spell a number, the most significant first. -/
def Spells (base : Nat) (cs : List Char) (n : Nat) : Prop :=
  ∃ ds, ds ≠ [] ∧ List.Forall₂ (IsDigit base) cs ds ∧ n = Nat.ofDigits base ds.reverse

section Digits

variable {base acc d m n : Nat} {c : Char} {cs : List Char} {word : UInt64}

/-- Digits below sixteen and the characters of their spellings, by value. -/
theorem isDigit_iff_toNat (hbase : base ≤ 16) :
    IsDigit base c d ↔
      d < base ∧
        (c.toNat = 0x30 + d ∧ d < 10 ∨ c.toNat = 0x57 + d ∧ 10 ≤ d ∨ c.toNat = 0x37 + d ∧ 10 ≤ d) := by
  have hlower : ∀ d < 16, (Nat.digitChar d).toNat = if d < 10 then 0x30 + d else 0x57 + d := by decide
  have hupper : ∀ d < 16,
      (Nat.digitChar d).toUpper.toNat = if d < 10 then 0x30 + d else 0x37 + d := by decide
  unfold IsDigit
  rw [← Char.toNat_inj, ← Char.toNat_inj]
  constructor
  · rintro ⟨hd, h⟩
    rw [hlower d (by omega), hupper d (by omega)] at h
    refine ⟨hd, ?_⟩
    split at h <;> omega
  · rintro ⟨hd, h⟩
    rw [hlower d (by omega), hupper d (by omega)]
    refine ⟨hd, ?_⟩
    split <;> omega

theorem digit?_eq_some_iff (hbase : base ≤ 16) : digit? base c = some d ↔ IsDigit base c d := by
  rw [isDigit_iff_toNat hbase]
  simp only [digit?, Option.ite_none_right_eq_some, Option.some.injEq]
  repeat' split
  all_goals omega

/-- Digits spell a number after what has been read before them. -/
theorem digits?_eq_some_iff (hbase : base ≤ 16) :
    digits? base acc cs = some n ↔
      ∃ ds, List.Forall₂ (IsDigit base) cs ds ∧
        n = Nat.ofDigits base ds.reverse + base ^ ds.length * acc := by
  induction cs generalizing acc with
  | nil => simp [digits?, eq_comm]
  | cons c cs ih =>
    have hvalue : ∀ d ds, Nat.ofDigits base (d :: ds : List Nat).reverse + base ^ (d :: ds).length * acc =
        Nat.ofDigits base ds.reverse + base ^ ds.length * (acc * base + d) := by
      intro d ds
      rw [List.reverse_cons, Nat.ofDigits_append, Nat.ofDigits_singleton, List.length_reverse,
        List.length_cons, Nat.pow_succ]
      ring
    rw [digits?]
    constructor
    · intro h
      cases hc : digit? base c with
      | none => simp [hc] at h
      | some d =>
        rw [hc] at h
        obtain ⟨ds, hds, hn⟩ := ih.1 h
        exact ⟨d :: ds, .cons ((digit?_eq_some_iff hbase).1 hc) hds, hn.trans (hvalue d ds).symm⟩
    · rintro ⟨_, hall, hn⟩
      cases hall with
      | cons hd hds =>
        rw [(digit?_eq_some_iff hbase).2 hd]
        exact ih.2 ⟨_, hds, hn.trans (hvalue _ _)⟩

theorem spells_iff (hbase : base ≤ 16) :
    Spells base cs n ↔ cs ≠ [] ∧ digits? base 0 cs = some n := by
  rw [digits?_eq_some_iff hbase]
  constructor
  · rintro ⟨ds, hne, hds, rfl⟩
    refine ⟨?_, ds, hds, rfl⟩
    rintro rfl
    exact hne (List.forall₂_nil_left_iff.1 hds)
  · rintro ⟨hne, ds, hds, rfl⟩
    refine ⟨ds, ?_, hds, rfl⟩
    rintro rfl
    exact hne (List.forall₂_nil_right_iff.1 hds)

theorem Spells.unique (hbase : base ≤ 16) (hm : Spells base cs m) (hn : Spells base cs n) : m = n := by
  have hread := ((spells_iff hbase).1 hm).2.symm.trans ((spells_iff hbase).1 hn).2
  exact Option.some.inj hread

theorem Spells.not_mem (hbase : base ≤ 16) (h : Spells base cs n) (hc : digit? base c = none) : c ∉ cs :=
  not_mem_of_digits? hc ((spells_iff hbase).1 h).2

theorem Spells.sign_not_mem (hbase : base ≤ 16) (h : Spells base cs n) : '-' ∉ cs ∧ '+' ∉ cs :=
  ⟨h.not_mem hbase (by simp [digit?]), h.not_mem hbase (by simp [digit?])⟩

theorem not_spells_nil : ¬ Spells base [] n := by
  rintro ⟨ds, hne, hds, -⟩
  exact hne (List.forall₂_nil_left_iff.1 hds)

/-- A word is read from the digits that spell it. -/
theorem natural?_eq_some_iff (hbase : base ≤ 16) :
    natural? base cs = some word ↔ Spells base cs word.toNat := by
  rw [spells_iff hbase]
  cases cs with
  | nil => simp [natural?]
  | cons c cs =>
    rw [natural?]
    cases digits? base 0 (c :: cs) with
    | none => simp
    | some n =>
      simp only [Option.ite_none_right_eq_some, Option.some.injEq, ne_eq, reduceCtorEq,
        not_false_eq_true, true_and]
      constructor
      · rintro ⟨hlt, rfl⟩
        exact (UInt64.toNat_ofNat_of_lt' hlt).symm
      · rintro rfl
        exact ⟨word.toNat_lt, UInt64.ofNat_toNat⟩

theorem magnitude?_eq_some_iff (hbase : base ≤ 16) :
    magnitude? base cs = some word ↔
      Spells base cs word.toNat ∨ ∃ ds, cs = '+' :: ds ∧ Spells base ds word.toNat := by
  unfold magnitude?
  split
  · next ds =>
    rw [natural?_eq_some_iff hbase]
    refine ⟨fun h => .inr ⟨ds, rfl, h⟩, ?_⟩
    rintro (h | ⟨ds, ⟨⟩, h⟩)
    · exact absurd List.mem_cons_self (h.sign_not_mem hbase).2
    · exact h
  · next hplus =>
    rw [natural?_eq_some_iff hbase]
    refine ⟨.inl, ?_⟩
    rintro (h | ⟨ds, rfl, -⟩)
    · exact h
    · exact absurd rfl (hplus ds)

end Digits

/-! ## Magnitudes -/

/-- A number without a sign: its start says in which base its digits are. -/
inductive IsMagnitude : List Char → Nat → Prop
  | zero : IsMagnitude ['0'] 0
  | decimal {c : Char} {cs : List Char} {n : Nat} (nonzero : c ≠ '0') (h : Spells 10 (c :: cs) n) :
      IsMagnitude (c :: cs) n
  | octal {cs : List Char} {n : Nat} (h : Spells 8 cs n) : IsMagnitude ('0' :: cs) n
  | hexadecimal {x : Char} {cs : List Char} {n : Nat} (mark : x = 'x' ∨ x = 'X') (h : Spells 16 cs n) :
      IsMagnitude ('0' :: x :: cs) n

/-- A number with a plus sign in front of its digits. Without the start of a base in front of the sign, the
digits are decimal, also if they start with a zero. -/
inductive HasSurplusPlus : List Char → Nat → Prop
  | decimal {cs : List Char} {n : Nat} (h : Spells 10 cs n) : HasSurplusPlus ('+' :: cs) n
  | octal {cs : List Char} {n : Nat} (h : Spells 8 cs n) : HasSurplusPlus ('0' :: '+' :: cs) n
  | hexadecimal {x : Char} {cs : List Char} {n : Nat} (mark : x = 'x' ∨ x = 'X') (h : Spells 16 cs n) :
      HasSurplusPlus ('0' :: x :: '+' :: cs) n

section Magnitudes

variable {m n : Nat} {cs : List Char} {word : UInt64}

/-- A magnitude has no sign anywhere. -/
theorem IsMagnitude.sign_not_mem (h : IsMagnitude cs n) : '-' ∉ cs ∧ '+' ∉ cs := by
  cases h with
  | zero => decide
  | decimal _ h => exact h.sign_not_mem (by decide)
  | octal h =>
    have hrest := h.sign_not_mem (by decide)
    simpa using hrest
  | hexadecimal mark h =>
    have hrest := h.sign_not_mem (by decide)
    rcases mark with rfl | rfl <;> simpa using hrest

theorem HasSurplusPlus.plus_mem (h : HasSurplusPlus cs n) : '+' ∈ cs := by
  cases h <;> simp

/-- No digit of base eight marks the base sixteen. -/
theorem Spells.unmarked {c : Char} (h : Spells 8 (c :: cs) n) : ¬ (c = 'x' ∨ c = 'X') := by
  rintro (rfl | rfl) <;> exact h.not_mem (by decide) (by decide) List.mem_cons_self

theorem unsigned?_hexadecimal_iff {x : Char} (mark : x = 'x' ∨ x = 'X') :
    unsigned? ('0' :: x :: cs) = some word ↔
      Spells 16 cs word.toNat ∨ ∃ ds, cs = '+' :: ds ∧ Spells 16 ds word.toNat := by
  have hbase : unsigned? ('0' :: x :: cs) = magnitude? 16 cs := by
    rcases mark with rfl | rfl <;> rfl
  rw [hbase, magnitude?_eq_some_iff (by decide)]

theorem unsigned?_octal_iff {c : Char} (unmarked : ¬ (c = 'x' ∨ c = 'X')) :
    unsigned? ('0' :: c :: cs) = some word ↔
      Spells 8 (c :: cs) word.toNat ∨ ∃ ds, c :: cs = '+' :: ds ∧ Spells 8 ds word.toNat := by
  have hbase : unsigned? ('0' :: c :: cs) = magnitude? 8 (c :: cs) := by
    unfold unsigned?
    split <;> simp_all
  rw [hbase, magnitude?_eq_some_iff (by decide)]

theorem unsigned?_decimal_iff {c : Char} (nonzero : c ≠ '0') :
    unsigned? (c :: cs) = some word ↔
      Spells 10 (c :: cs) word.toNat ∨ ∃ ds, c :: cs = '+' :: ds ∧ Spells 10 ds word.toNat := by
  have hbase : unsigned? (c :: cs) = magnitude? 10 (c :: cs) := by simp [unsigned?, nonzero]
  rw [hbase, magnitude?_eq_some_iff (by decide)]

theorem IsMagnitude.unsigned?_eq (h : IsMagnitude cs n) (hn : word.toNat = n) :
    unsigned? cs = some word := by
  cases h with
  | zero =>
    obtain rfl : word = 0 := UInt64.toNat_inj.1 hn
    rfl
  | decimal nonzero h => exact (unsigned?_decimal_iff nonzero).2 (.inl (hn ▸ h))
  | @octal cs _ h =>
    cases cs with
    | nil => exact absurd h not_spells_nil
    | cons c cs => exact (unsigned?_octal_iff h.unmarked).2 (.inl (hn ▸ h))
  | hexadecimal mark h => exact (unsigned?_hexadecimal_iff mark).2 (.inl (hn ▸ h))

theorem HasSurplusPlus.unsigned?_eq (h : HasSurplusPlus cs n) (hn : word.toNat = n) :
    unsigned? cs = some word := by
  cases h with
  | decimal h => exact (unsigned?_decimal_iff (by decide)).2 (.inr ⟨_, rfl, hn ▸ h⟩)
  | octal h => exact (unsigned?_octal_iff (by decide)).2 (.inr ⟨_, rfl, hn ▸ h⟩)
  | hexadecimal mark h => exact (unsigned?_hexadecimal_iff mark).2 (.inr ⟨_, rfl, hn ▸ h⟩)

theorem isMagnitude_or_of_unsigned? (h : unsigned? cs = some word) :
    IsMagnitude cs word.toNat ∨ HasSurplusPlus cs word.toNat := by
  cases cs with
  | nil => cases h
  | cons c cs =>
    by_cases nonzero : c ≠ '0'
    · rcases (unsigned?_decimal_iff nonzero).1 h with hdigits | ⟨ds, ⟨⟩, hdigits⟩
      · exact .inl (.decimal nonzero hdigits)
      · exact .inr (.decimal hdigits)
    · obtain rfl : c = '0' := Decidable.not_not.1 nonzero
      cases cs with
      | nil =>
        cases h
        exact .inl .zero
      | cons c cs =>
        by_cases mark : c = 'x' ∨ c = 'X'
        · rcases (unsigned?_hexadecimal_iff mark).1 h with hdigits | ⟨ds, rfl, hdigits⟩
          · exact .inl (.hexadecimal mark hdigits)
          · exact .inr (.hexadecimal mark hdigits)
        · rcases (unsigned?_octal_iff mark).1 h with hdigits | ⟨ds, ⟨⟩, hdigits⟩
          · exact .inl (.octal hdigits)
          · exact .inr (.octal hdigits)

/-- A word is read from the magnitude that it is, with or without a plus sign too many. -/
theorem unsigned?_eq_some_iff :
    unsigned? cs = some word ↔ IsMagnitude cs word.toNat ∨ HasSurplusPlus cs word.toNat :=
  ⟨isMagnitude_or_of_unsigned?,
    fun h => h.elim (fun h => h.unsigned?_eq rfl) (fun h => h.unsigned?_eq rfl)⟩

theorem IsMagnitude.unique (hm : IsMagnitude cs m) (hn : IsMagnitude cs n) : m = n := by
  cases hm with
  | zero =>
    cases hn with
    | zero => rfl
    | decimal nonzero => exact absurd rfl nonzero
    | octal h => exact absurd h not_spells_nil
  | decimal nonzero hm =>
    cases hn with
    | zero => exact absurd rfl nonzero
    | decimal _ hn => exact hm.unique (by decide) hn
    | octal => exact absurd rfl nonzero
    | hexadecimal => exact absurd rfl nonzero
  | octal hm =>
    cases hn with
    | zero => exact absurd hm not_spells_nil
    | decimal nonzero => exact absurd rfl nonzero
    | octal hn => exact hm.unique (by decide) hn
    | hexadecimal mark => exact absurd mark hm.unmarked
  | hexadecimal mark hm =>
    cases hn with
    | decimal nonzero => exact absurd rfl nonzero
    | octal hn => exact absurd mark hn.unmarked
    | hexadecimal _ hn => exact hm.unique (by decide) hn

end Magnitudes

/-! ## Literals -/

/-- A magnitude of some form behind one sign at most, and the integer of both. -/
inductive IsSigned (form : List Char → Nat → Prop) : List Char → Int → Prop
  | bare {cs : List Char} {n : Nat} (unsigned : ∀ c ∈ cs.head?, c ≠ '-' ∧ c ≠ '+') (h : form cs n) :
      IsSigned form cs n
  | plus {cs : List Char} {n : Nat} (h : form cs n) : IsSigned form ('+' :: cs) n
  | minus {cs : List Char} {n : Nat} (h : form cs n) : IsSigned form ('-' :: cs) (-n)

/-- A literal as it is documented: one sign at most, and a magnitude. -/
def IsLiteral (cs : List Char) (z : Int) : Prop := IsSigned IsMagnitude cs z

/-- A literal with a plus sign too many. -/
def IsSurplusLiteral (cs : List Char) (z : Int) : Prop := IsSigned HasSurplusPlus cs z

section Literals

variable {form other : List Char → Nat → Prop} {cs : List Char} {y z : Int} {word : UInt64}

theorem IsSigned.mono (himp : ∀ cs n, form cs n → other cs n) (h : IsSigned form cs z) :
    IsSigned other cs z := by
  cases h with
  | bare unsigned h => exact .bare unsigned (himp _ _ h)
  | plus h => exact .plus (himp _ _ h)
  | minus h => exact .minus (himp _ _ h)

theorem isSigned_or_iff :
    IsSigned (fun cs n => form cs n ∨ other cs n) cs z ↔ IsSigned form cs z ∨ IsSigned other cs z := by
  constructor
  · intro h
    cases h with
    | bare unsigned h => exact h.imp (.bare unsigned) (.bare unsigned)
    | plus h => exact h.imp .plus .plus
    | minus h => exact h.imp .minus .minus
  · rintro (h | h)
    · exact h.mono fun _ _ => .inl
    · exact h.mono fun _ _ => .inr

/-- Two readings of one text find the same sign. -/
theorem IsSigned.same_sign (hy : IsSigned form cs y) (hz : IsSigned other cs z) :
    ∃ body m n, form body m ∧ other body n ∧ ((y = m ∧ z = n) ∨ (y = -(m : Int) ∧ z = -(n : Int))) := by
  cases hy with
  | bare unsigned hm =>
    cases hz with
    | bare _ hn => exact ⟨_, _, _, hm, hn, .inl ⟨rfl, rfl⟩⟩
    | plus => exact absurd rfl (unsigned '+' rfl).2
    | minus => exact absurd rfl (unsigned '-' rfl).1
  | plus hm =>
    cases hz with
    | bare unsigned => exact absurd rfl (unsigned '+' rfl).2
    | plus hn => exact ⟨_, _, _, hm, hn, .inl ⟨rfl, rfl⟩⟩
  | minus hm =>
    cases hz with
    | bare unsigned => exact absurd rfl (unsigned '-' rfl).1
    | minus hn => exact ⟨_, _, _, hm, hn, .inr ⟨rfl, rfl⟩⟩

theorem IsLiteral.unique (hy : IsLiteral cs y) (hz : IsLiteral cs z) : y = z := by
  obtain ⟨body, m, n, hm, hn, h⟩ := hy.same_sign hz
  have heq := hm.unique hn
  omega

theorem IsLiteral.not_surplus (hy : IsLiteral cs y) : ¬ IsSurplusLiteral cs z := by
  intro hz
  obtain ⟨body, m, n, hm, hn, -⟩ := hy.same_sign hz
  exact hm.sign_not_mem.2 hn.plus_mem

theorem IsMagnitude.isLiteral {n : Nat} (h : IsMagnitude cs n) : IsLiteral cs n := by
  refine .bare ?_ h
  intro c hc
  have hmem := List.mem_of_head? hc
  exact ⟨by rintro rfl; exact h.sign_not_mem.1 hmem, by rintro rfl; exact h.sign_not_mem.2 hmem⟩

theorem integer?_eq_some_iff :
    integer? cs = some z ↔ (IsLiteral cs z ∨ IsSurplusLiteral cs z) ∧ z.natAbs < wordLimit := by
  rw [IsLiteral, IsSurplusLiteral, ← isSigned_or_iff]
  have hlt : ∀ magnitude : UInt64, magnitude.toNat < wordLimit := UInt64.toNat_lt
  have hread : ∀ body n, IsMagnitude body n ∨ HasSurplusPlus body n → n < wordLimit →
      unsigned? body = some (UInt64.ofNat n) ∧ (UInt64.ofNat n).toNat = n := by
    intro body n h hn
    have hself : (UInt64.ofNat n).toNat = n := UInt64.toNat_ofNat_of_lt' hn
    exact ⟨unsigned?_eq_some_iff.2 (hself.symm ▸ h), hself⟩
  constructor
  · intro h
    unfold integer? at h
    split at h
    · obtain ⟨magnitude, hbody, rfl⟩ := Option.map_eq_some_iff.1 h
      exact ⟨.minus (unsigned?_eq_some_iff.1 hbody), by simpa using hlt magnitude⟩
    · obtain ⟨magnitude, hbody, rfl⟩ := Option.map_eq_some_iff.1 h
      exact ⟨.plus (unsigned?_eq_some_iff.1 hbody), hlt magnitude⟩
    · next hminus hplus =>
      obtain ⟨magnitude, hbody, rfl⟩ := Option.map_eq_some_iff.1 h
      refine ⟨.bare ?_ (unsigned?_eq_some_iff.1 hbody), hlt magnitude⟩
      intro c hc
      obtain ⟨rest, rfl⟩ := List.head?_eq_some_iff.1 hc
      exact ⟨by rintro rfl; exact hminus rest rfl, by rintro rfl; exact hplus rest rfl⟩
  · rintro ⟨h, hlimit⟩
    cases h with
    | @bare cs n unsigned h =>
      obtain ⟨hsome, hself⟩ := hread cs n h hlimit
      rw [integer?.eq_3 cs (by rintro rest rfl; exact absurd rfl (unsigned '-' rfl).1)
        (by rintro rest rfl; exact absurd rfl (unsigned '+' rfl).2), hsome, Option.map_some, hself]
    | @plus cs n h =>
      obtain ⟨hsome, hself⟩ := hread cs n h hlimit
      rw [integer?, hsome, Option.map_some, hself]
    | @minus cs n h =>
      obtain ⟨hsome, hself⟩ := hread cs n h (by simpa using hlimit)
      rw [integer?, hsome, Option.map_some, hself]

theorem literal?_eq_none_iff_integer? : literal? cs = none ↔ integer? cs = none := by
  unfold literal? integer?
  split <;> simp

/-- **A literal is read as the word that its integer leaves, and nothing but literals is read**, with or
without a plus sign too many. -/
theorem literal?_eq_some_iff :
    literal? cs = some word ↔
      ∃ z, (IsLiteral cs z ∨ IsSurplusLiteral cs z) ∧ z.natAbs < wordLimit ∧
        (word.toNat : Int) = z % wordLimit := by
  constructor
  · intro h
    obtain ⟨z, hz, hword⟩ := toNat_of_literal? h
    obtain ⟨hform, hlimit⟩ := integer?_eq_some_iff.1 hz
    exact ⟨z, hform, hlimit, hword⟩
  · rintro ⟨z, hform, hlimit, hword⟩
    have hz := integer?_eq_some_iff.2 ⟨hform, hlimit⟩
    have hsome : literal? cs ≠ none := by
      rw [ne_eq, literal?_eq_none_iff_integer?, hz]
      exact Option.some_ne_none z
    obtain ⟨found, hfound⟩ := Option.ne_none_iff_exists'.1 hsome
    obtain ⟨z', hz', hself⟩ := toNat_of_literal? hfound
    obtain rfl : z = z' := Option.some.inj (hz.symm.trans hz')
    have hsame : found.toNat = word.toNat := Int.ofNat_inj.1 (hself.trans hword.symm)
    rw [hfound, UInt64.toNat_inj.1 hsame]

/-- A magnitude that is read is the word that is read. -/
theorem IsMagnitude.toNat_eq {n : Nat} (h : IsMagnitude cs n) (hword : literal? cs = some word) :
    word.toNat = n := by
  obtain ⟨z, hform, hlimit, hresidue⟩ := literal?_eq_some_iff.1 hword
  rcases hform with hz | hz
  · obtain rfl : z = n := hz.unique h.isLiteral
    rw [Int.emod_eq_of_lt (Int.natCast_nonneg n) (Int.ofNat_lt.2 hlimit)] at hresidue
    exact Int.ofNat_inj.1 hresidue
  · exact absurd hz h.isLiteral.not_surplus

theorem literal?_eq_none_iff :
    literal? cs = none ↔ ∀ z, z.natAbs < wordLimit → ¬ IsLiteral cs z ∧ ¬ IsSurplusLiteral cs z := by
  rw [literal?_eq_none_iff_integer?]
  constructor
  · intro hnone z hlimit
    rw [← not_or]
    intro hform
    cases hnone.symm.trans (integer?_eq_some_iff.2 ⟨hform, hlimit⟩)
  · intro h
    refine Option.eq_none_iff_forall_ne_some.2 fun z hz => ?_
    obtain ⟨hform, hlimit⟩ := integer?_eq_some_iff.1 hz
    exact not_or.2 (h z hlimit) hform

end Literals

end Hallmark.Number
