import Hallmark.Text.Utf8

/-!
# `Hallmark/Proofs/Text/Utf8.lean` — characters and their bytes

The bytes of a character are a well-formed sequence, whatever bytes follow, and nothing else is one. So a
text is read back from its bytes. Of the bytes of a character all but the first continue a sequence, and
such a byte starts none: hence no character reaches over a byte that another one starts with
(`ends_before_boundary`). Main statements: `head?_eq_some_iff`, `decode?_encode`.
-/

set_option autoImplicit false

namespace Hallmark.Text.Utf8

/-! ## Bytes as numbers -/

theorem toNat_ofNat_of_lt {n : Nat} (h : n < 256) : (UInt8.ofNat n).toNat = n := by
  rw [UInt8.toNat_ofNat']
  omega

theorem ofNat_eq {n : Nat} {b : UInt8} (h : n = b.toNat) : UInt8.ofNat n = b := by
  rw [h, UInt8.ofNat_toNat]

/-- The first bytes of the sequences of each length. -/
theorem width_eq_iff {a : UInt8} :
    (width a = 1 ↔ a.toNat < 0x80) ∧ (width a = 2 ↔ 0xC2 ≤ a.toNat ∧ a.toNat < 0xE0) ∧
    (width a = 3 ↔ 0xE0 ≤ a.toNat ∧ a.toNat < 0xF0) ∧
    (width a = 4 ↔ 0xF0 ≤ a.toNat ∧ a.toNat < 0xF5) := by
  simp only [width, UInt8.lt_iff_toNat_lt, UInt8.reduceToNat]
  grind

theorem isContinuation_iff {b : UInt8} :
    isContinuation b = true ↔ 0x80 ≤ b.toNat ∧ b.toNat ≤ 0xBF := by
  simp [isContinuation, UInt8.le_iff_toNat_le]

/-- A second byte continues a sequence; after four of the lead bytes not all of them may follow. -/
theorem isSecond_iff {a b : UInt8} :
    isSecond a b = true ↔ (0x80 ≤ b.toNat ∧ b.toNat ≤ 0xBF) ∧
      (a.toNat = 0xE0 → 0xA0 ≤ b.toNat) ∧ (a.toNat = 0xED → b.toNat ≤ 0x9F) ∧
      (a.toNat = 0xF0 → 0x90 ≤ b.toNat) ∧ (a.toNat = 0xF4 → b.toNat ≤ 0x8F) := by
  simp only [isSecond, isContinuation, beq_iff_eq, ← UInt8.toNat_inj, UInt8.le_iff_toNat_le,
    UInt8.reduceToNat]
  grind

/-! ## Sequences of each length -/

section Sequences

variable {a b c d : UInt8} (rest : List UInt8)

theorem head?_one (ha : a.toNat < 0x80) : head? (a :: rest) = some (Char.ofNat a.toNat, rest) := by
  have hwidth := width_eq_iff.1.2 ha
  simp only [head?, hwidth]

theorem head?_two (ha : 0xC2 ≤ a.toNat ∧ a.toNat < 0xE0) (hb : isSecond a b = true) :
    head? (a :: b :: rest) =
      some (Char.ofNat ((a.toNat - 0xC0) * 0x40 + (b.toNat - 0x80)), rest) := by
  have hwidth := width_eq_iff.2.1.2 ha
  simp only [head?, hwidth, hb, if_true]

theorem head?_three (ha : 0xE0 ≤ a.toNat ∧ a.toNat < 0xF0) (hb : isSecond a b = true)
    (hc : isContinuation c = true) :
    head? (a :: b :: c :: rest) =
      some (Char.ofNat ((a.toNat - 0xE0) * 0x1000 + (b.toNat - 0x80) * 0x40 + (c.toNat - 0x80)),
        rest) := by
  have hwidth := width_eq_iff.2.2.1.2 ha
  simp only [head?, hwidth, hb, hc, Bool.and_self, if_true]

theorem head?_four (ha : 0xF0 ≤ a.toNat ∧ a.toNat < 0xF5) (hb : isSecond a b = true)
    (hc : isContinuation c = true) (hd : isContinuation d = true) :
    head? (a :: b :: c :: d :: rest) =
      some (Char.ofNat ((a.toNat - 0xF0) * 0x40000 + (b.toNat - 0x80) * 0x1000 +
        (c.toNat - 0x80) * 0x40 + (d.toNat - 0x80)), rest) := by
  have hwidth := width_eq_iff.2.2.2.2 ha
  simp only [head?, hwidth, hb, hc, hd, Bool.and_self, if_true]

end Sequences

/-! ## Characters -/

theorem toNat_lt_or (c : Char) : c.toNat < 0xD800 ∨ 0xDFFF < c.toNat ∧ c.toNat < 0x110000 := by
  have := c.valid
  rwa [UInt32.isValidChar, Nat.isValidChar] at this

/-- A byte that continues a sequence carries six bits. -/
theorem toNat_sixBits (n : Nat) : (UInt8.ofNat (n % 64 + 128)).toNat = n % 64 + 128 :=
  toNat_ofNat_of_lt (by omega)

theorem isContinuation_sixBits (n : Nat) : isContinuation (UInt8.ofNat (n % 64 + 128)) = true := by
  rw [isContinuation_iff, toNat_sixBits]
  omega

/-- The bytes of a character are read as it, whatever follows. -/
theorem head?_utf8EncodeChar (c : Char) (rest : List UInt8) :
    head? (String.utf8EncodeChar c ++ rest) = some (c, rest) := by
  have hc := toNat_lt_or c
  have hchar := Char.ofNat_toNat c
  have hval : c.val.toNat = c.toNat := rfl
  rw [String.utf8EncodeChar, hval]
  generalize c.toNat = v at hc hchar
  split
  · have hlead : (UInt8.ofNat v).toNat = v := toNat_ofNat_of_lt (by omega)
    rw [List.singleton_append, head?_one rest (by omega), hlead, hchar]
  split
  · have hlead : (UInt8.ofNat (v / 64 % 32 + 192)).toNat = v / 64 % 32 + 192 :=
      toNat_ofNat_of_lt (by omega)
    have hsecond : isSecond (UInt8.ofNat (v / 64 % 32 + 192)) (UInt8.ofNat (v % 64 + 128)) = true := by
      rw [isSecond_iff, hlead, toNat_sixBits]
      omega
    have hv : (v / 64 % 32 + 192 - 0xC0) * 0x40 + (v % 64 + 128 - 0x80) = v := by omega
    rw [List.cons_append, List.singleton_append, head?_two rest (by omega) hsecond, hlead,
      toNat_sixBits, hv, hchar]
  split
  · have hlead : (UInt8.ofNat (v / 4096 % 16 + 224)).toNat = v / 4096 % 16 + 224 :=
      toNat_ofNat_of_lt (by omega)
    have hsecond : isSecond (UInt8.ofNat (v / 4096 % 16 + 224))
        (UInt8.ofNat (v / 64 % 64 + 128)) = true := by
      rw [isSecond_iff, hlead, toNat_sixBits]
      omega
    have hv : (v / 4096 % 16 + 224 - 0xE0) * 0x1000 + (v / 64 % 64 + 128 - 0x80) * 0x40 +
        (v % 64 + 128 - 0x80) = v := by omega
    rw [List.cons_append, List.cons_append, List.singleton_append,
      head?_three rest (by omega) hsecond (isContinuation_sixBits v), hlead, toNat_sixBits,
      toNat_sixBits, hv, hchar]
  · have hlead : (UInt8.ofNat (v / 262144 % 8 + 240)).toNat = v / 262144 % 8 + 240 :=
      toNat_ofNat_of_lt (by omega)
    have hsecond : isSecond (UInt8.ofNat (v / 262144 % 8 + 240))
        (UInt8.ofNat (v / 4096 % 64 + 128)) = true := by
      rw [isSecond_iff, hlead, toNat_sixBits]
      omega
    have hv : (v / 262144 % 8 + 240 - 0xF0) * 0x40000 + (v / 4096 % 64 + 128 - 0x80) * 0x1000 +
        (v / 64 % 64 + 128 - 0x80) * 0x40 + (v % 64 + 128 - 0x80) = v := by omega
    rw [List.cons_append, List.cons_append, List.cons_append, List.singleton_append,
      head?_four rest (by omega) hsecond (isContinuation_sixBits _) (isContinuation_sixBits v), hlead,
      toNat_sixBits, toNat_sixBits, toNat_sixBits, hv, hchar]

/-! ## Well-formed sequences -/

/-- The bytes of the character of a code point. -/
theorem utf8EncodeChar_ofNat {v : Nat} (h : v.isValidChar) :
    String.utf8EncodeChar (Char.ofNat v) =
      if v ≤ 127 then [UInt8.ofNat v]
      else if v ≤ 2047 then [UInt8.ofNat (v / 64 % 32 + 192), UInt8.ofNat (v % 64 + 128)]
      else if v ≤ 65535 then
        [UInt8.ofNat (v / 4096 % 16 + 224), UInt8.ofNat (v / 64 % 64 + 128),
          UInt8.ofNat (v % 64 + 128)]
      else
        [UInt8.ofNat (v / 262144 % 8 + 240), UInt8.ofNat (v / 4096 % 64 + 128),
          UInt8.ofNat (v / 64 % 64 + 128), UInt8.ofNat (v % 64 + 128)] := by
  have hv : (Char.ofNat v).val.toNat = v := by
    rw [Char.ofNat, dif_pos h]
    rfl
  rw [String.utf8EncodeChar, hv]

/-- A sequence that is read is that of its character. The limits on the second byte are what makes the
code point a valid one, and too large for a shorter sequence. -/
theorem eq_append_of_head? {bs rest : List UInt8} {c : Char} (h : head? bs = some (c, rest)) :
    bs = String.utf8EncodeChar c ++ rest := by
  unfold head? at h
  split at h
  · simp at h
  next a tail =>
  split at h
  · next hwidth =>
    have ha := width_eq_iff.1.1 hwidth
    simp only [Option.some.injEq, Prod.mk.injEq] at h
    obtain ⟨rfl, rfl⟩ := h
    rw [utf8EncodeChar_ofNat (.inl (by omega)), if_pos (by omega), ofNat_eq rfl]
    rfl
  · next b behind hwidth =>
    have ha := width_eq_iff.2.1.1 hwidth
    simp only [Option.ite_none_right_eq_some, Option.some.injEq, Prod.mk.injEq] at h
    obtain ⟨hsecond, rfl, rfl⟩ := h
    have hb := isSecond_iff.1 hsecond
    rw [utf8EncodeChar_ofNat (.inl (by omega)), if_neg (by omega), if_pos (by omega),
      ofNat_eq (b := a) (by omega), ofNat_eq (b := b) (by omega)]
    rfl
  · next b c behind hwidth =>
    have ha := width_eq_iff.2.2.1.1 hwidth
    simp only [Option.ite_none_right_eq_some, Bool.and_eq_true, Option.some.injEq,
      Prod.mk.injEq] at h
    obtain ⟨⟨hsecond, hthird⟩, rfl, rfl⟩ := h
    have hb := isSecond_iff.1 hsecond
    have hc := isContinuation_iff.1 hthird
    rw [utf8EncodeChar_ofNat (by unfold Nat.isValidChar; omega), if_neg (by omega),
      if_neg (by omega), if_pos (by omega), ofNat_eq (b := a) (by omega),
      ofNat_eq (b := b) (by omega), ofNat_eq (b := c) (by omega)]
    rfl
  · next b c d behind hwidth =>
    have ha := width_eq_iff.2.2.2.1 hwidth
    simp only [Option.ite_none_right_eq_some, Bool.and_eq_true, Option.some.injEq,
      Prod.mk.injEq] at h
    obtain ⟨⟨⟨hsecond, hthird⟩, hfourth⟩, rfl, rfl⟩ := h
    have hb := isSecond_iff.1 hsecond
    have hc := isContinuation_iff.1 hthird
    have hd := isContinuation_iff.1 hfourth
    rw [utf8EncodeChar_ofNat (.inr (by omega)), if_neg (by omega), if_neg (by omega),
      if_neg (by omega), ofNat_eq (b := a) (by omega), ofNat_eq (b := b) (by omega),
      ofNat_eq (b := c) (by omega), ofNat_eq (b := d) (by omega)]
    rfl
  · simp at h

/-- **Bytes start with a well-formed sequence if they start with the bytes of its character.** -/
theorem head?_eq_some_iff {bs rest : List UInt8} {c : Char} :
    head? bs = some (c, rest) ↔ bs = String.utf8EncodeChar c ++ rest := by
  constructor
  · exact eq_append_of_head?
  · intro h
    rw [h]
    exact head?_utf8EncodeChar c rest

/-- No bytes start with two characters. -/
theorem eq_of_utf8EncodeChar_append {c d : Char} {rest behind : List UInt8}
    (h : String.utf8EncodeChar c ++ rest = String.utf8EncodeChar d ++ behind) :
    c = d ∧ rest = behind := by
  have hhead := head?_eq_some_iff.2 h
  rw [head?_utf8EncodeChar] at hhead
  cases hhead
  exact ⟨rfl, rfl⟩

/-! ## Boundaries -/

/-- Of the bytes of a character, all but the first continue a sequence. -/
theorem utf8EncodeChar_eq_cons (c : Char) : ∃ lead tail, String.utf8EncodeChar c = lead :: tail ∧
    isContinuation lead = false ∧ ∀ b ∈ tail, isContinuation b = true := by
  have hc := toNat_lt_or c
  have hval : c.val.toNat = c.toNat := rfl
  have hlead : ∀ n < 256, n < 0x80 ∨ 0xBF < n → isContinuation (UInt8.ofNat n) = false := by
    intro n hn hout
    rw [← Bool.not_eq_true, isContinuation_iff, toNat_ofNat_of_lt hn]
    omega
  have htail := isContinuation_sixBits
  rw [String.utf8EncodeChar, hval]
  split
  · exact ⟨_, [], rfl, hlead _ (by omega) (by omega), List.forall_mem_nil _⟩
  split
  · refine ⟨_, _, rfl, hlead _ (by omega) (by omega), ?_⟩
    exact List.forall_mem_singleton.2 (htail _)
  split
  · refine ⟨_, _, rfl, hlead _ (by omega) (by omega), ?_⟩
    exact List.forall_mem_cons.2 ⟨htail _, List.forall_mem_singleton.2 (htail _)⟩
  · refine ⟨_, _, rfl, hlead _ (by omega) (by omega), ?_⟩
    exact List.forall_mem_cons.2
      ⟨htail _, List.forall_mem_cons.2 ⟨htail _, List.forall_mem_singleton.2 (htail _)⟩⟩

/-- The bytes do not start with one that continues a sequence. -/
def IsBoundary (bs : List UInt8) : Prop := ∀ b ∈ bs.head?, isContinuation b = false

theorem isBoundary_utf8EncodeChar_append (c : Char) (rest : List UInt8) :
    IsBoundary (String.utf8EncodeChar c ++ rest) := by
  obtain ⟨lead, tail, hbytes, hlead, -⟩ := utf8EncodeChar_eq_cons c
  rw [hbytes]
  intro b hb
  obtain rfl : lead = b := Option.some.inj hb
  exact hlead

/-- A byte that continues a sequence starts none. -/
theorem head?_of_isContinuation {b : UInt8} (h : isContinuation b = true) (rest : List UInt8) :
    head? (b :: rest) = none := by
  cases hhead : head? (b :: rest) with
  | none => rfl
  | some p =>
    have hboundary := isBoundary_utf8EncodeChar_append p.1 p.2
    rw [← eq_append_of_head? hhead] at hboundary
    rw [hboundary b rfl] at h
    cases h

/-- A character at the front ends at a boundary, or before it. -/
theorem ends_before_boundary {c : Char} {rest before after : List UInt8} (hafter : IsBoundary after)
    (h : String.utf8EncodeChar c ++ rest = before ++ after) :
    before = [] ∨ ∃ more, before = String.utf8EncodeChar c ++ more ∧ rest = more ++ after := by
  rcases List.append_eq_append_iff.1 h with ⟨more, hbefore, hrest⟩ | ⟨inside, hc, hrest⟩
  · exact .inr ⟨more, hbefore, hrest⟩
  · cases before with
    | nil => exact .inl rfl
    | cons b before =>
      right
      cases inside with
      | nil =>
        rw [List.append_nil] at hc
        refine ⟨[], ?_, ?_⟩
        · rw [hc, List.append_nil]
        · exact hrest.symm
      | cons x inside =>
        -- The character would go on with the byte behind the boundary.
        obtain ⟨lead, tail, hbytes, -, htail⟩ := utf8EncodeChar_eq_cons c
        have hx : x ∈ tail := by
          rw [hbytes, List.cons_append, List.cons.injEq] at hc
          rw [hc.2]
          exact List.mem_append_right _ List.mem_cons_self
        have hlead : isContinuation x = false := hafter x (by rw [hrest]; rfl)
        rw [htail x hx] at hlead
        cases hlead

/-- Before a boundary, a byte that starts no character starts none with what follows either. -/
theorem head?_append_of_none {b : UInt8} {before after : List UInt8} (h : head? (b :: before) = none)
    (hafter : IsBoundary after) : head? (b :: (before ++ after)) = none := by
  cases hhead : head? (b :: (before ++ after)) with
  | none => rfl
  | some p =>
    have hbytes : String.utf8EncodeChar p.1 ++ p.2 = b :: before ++ after :=
      (eq_append_of_head? hhead).symm
    rcases ends_before_boundary hafter hbytes with hnil | ⟨more, hbefore, -⟩
    · cases hnil
    · rw [hbefore, head?_utf8EncodeChar] at h
      cases h

/-- A character that is cut short is none. -/
theorem head?_take_utf8EncodeChar {c : Char} {k : Nat} (h : k < (String.utf8EncodeChar c).length) :
    head? ((String.utf8EncodeChar c).take k) = none := by
  cases hhead : head? ((String.utf8EncodeChar c).take k) with
  | none => rfl
  | some p =>
    have hcut := eq_append_of_head? hhead
    have hwhole : String.utf8EncodeChar c ++ [] =
        String.utf8EncodeChar p.1 ++ (p.2 ++ (String.utf8EncodeChar c).drop k) := by
      rw [← List.append_assoc, ← hcut, List.take_append_drop, List.append_nil]
    have hnil := (eq_of_utf8EncodeChar_append hwhole).2
    have hdrop := List.drop_eq_nil_iff.1 (List.append_eq_nil_iff.1 hnil.symm).2
    exact absurd h (Nat.not_lt_of_le hdrop)

/-- Bytes are none at all, or start with a character, or with a byte that starts none. -/
theorem headInduction {P : List UInt8 → Prop} (nil : P [])
    (char : ∀ c rest, P rest → P (String.utf8EncodeChar c ++ rest))
    (stray : ∀ b rest, head? (b :: rest) = none → P rest → P (b :: rest)) (bs : List UInt8) :
    P bs := by
  induction h : bs.length using Nat.strongRecOn generalizing bs with
  | _ n ih =>
    cases bs with
    | nil => exact nil
    | cons b bs =>
      cases hhead : head? (b :: bs) with
      | none =>
        have hlt : bs.length < n := by rw [← h]; exact Nat.lt_succ_self _
        exact stray b bs hhead (ih bs.length hlt bs rfl)
      | some p =>
        have hlt : p.2.length < n := h ▸ length_lt_of_head? hhead
        rw [eq_append_of_head? hhead]
        exact char p.1 p.2 (ih p.2.length hlt p.2 rfl)

/-! ## Texts -/

theorem encode_cons (c : Char) (cs : List Char) :
    encode (c :: cs) = String.utf8EncodeChar c ++ encode cs := List.flatMap_cons

theorem encode_append (cs ds : List Char) : encode (cs ++ ds) = encode cs ++ encode ds :=
  List.flatMap_append

theorem split_of_head?_eq_none {bs : List UInt8} (h : head? bs = none) : split bs = ([], bs) := by
  rw [split]
  split
  · rfl
  · next heq => cases h.symm.trans heq

theorem split_char (c : Char) (rest : List UInt8) :
    split (String.utf8EncodeChar c ++ rest) = (c :: (split rest).1, (split rest).2) := by
  have hhead := head?_utf8EncodeChar c rest
  rw [split]
  split
  · next heq => cases hhead.symm.trans heq
  · next heq =>
    cases hhead.symm.trans heq
    rfl

/-- What is read and what is left make up the bytes. -/
theorem encode_split (bs : List UInt8) : encode (split bs).1 ++ (split bs).2 = bs := by
  induction bs using headInduction with
  | nil =>
    rw [split_of_head?_eq_none rfl]
    rfl
  | char c rest ih => rw [split_char, encode_cons, List.append_assoc, ih]
  | stray b rest hnone ih =>
    rw [split_of_head?_eq_none hnone]
    rfl

/-- Reading stops behind a text at what starts with no character. -/
theorem split_encode_append {tail : List UInt8} (h : head? tail = none) (cs : List Char) :
    split (encode cs ++ tail) = (cs, tail) := by
  induction cs with
  | nil => exact split_of_head?_eq_none h
  | cons c cs ih => rw [encode_cons, List.append_assoc, split_char, ih]

theorem split_encode (cs : List Char) : split (encode cs) = (cs, []) := by
  have hnone : head? [] = none := rfl
  have hread := split_encode_append hnone cs
  rwa [List.append_nil] at hread

/-- **A text is read back from its bytes.** -/
theorem decode?_encode (cs : List Char) : decode? (encode cs) = some cs := by
  rw [decode?, split_encode]

end Hallmark.Text.Utf8
