/-!
# `Hallmark/Proofs/Order.lean` — tests that agree about an order

A test for equality, one for difference and one for each strict order agree about two things if each says
what it is named for (`Compares`). Where a strict order tells any two things apart, exactly one of
equality and the orders then passes.
-/

set_option autoImplicit false

namespace Hallmark

/-- One of the three holds, and no other. -/
def ExactlyOne (p q r : Prop) : Prop :=
  p ∧ ¬ q ∧ ¬ r ∨ ¬ p ∧ q ∧ ¬ r ∨ ¬ p ∧ ¬ q ∧ r

variable {α : Type} [LT α]

/-- The tests say how two things compare. -/
structure Compares (equal notEqual less greater : Prop) (a b : α) : Prop where
  equal_iff : equal ↔ a = b
  less_iff : less ↔ a < b
  greater_iff : greater ↔ b < a
  exactlyOne : ExactlyOne equal less greater
  notEqual_iff_not : notEqual ↔ ¬ equal
  notEqual_iff_or : notEqual ↔ less ∨ greater

section Laws

variable [Std.Trichotomous fun a b : α => a < b] [Std.Asymm fun a b : α => a < b]

theorem exactlyOne_compare (a b : α) : ExactlyOne (a = b) (a < b) (b < a) := by
  have irrefl : ∀ c : α, ¬ c < c := fun c h => Std.Asymm.asymm (r := (· < ·)) c c h h
  rcases Std.lt_trichotomy a b with hlt | rfl | hgt
  · right; left
    exact ⟨fun h => irrefl b (h ▸ hlt), hlt, Std.Asymm.asymm a b hlt⟩
  · left
    exact ⟨rfl, irrefl a, irrefl a⟩
  · right; right
    exact ⟨fun h => irrefl b (h ▸ hgt), Std.Asymm.asymm b a hgt, hgt⟩

theorem Compares.of_iff {equal notEqual less greater : Prop} {a b : α} (hequal : equal ↔ a = b)
    (hless : less ↔ a < b) (hgreater : greater ↔ b < a) (hnotEqual : notEqual ↔ ¬ equal) :
    Compares equal notEqual less greater a b := by
  have hone : ExactlyOne equal less greater := by
    rw [hequal, hless, hgreater]
    exact exactlyOne_compare a b
  refine ⟨hequal, hless, hgreater, hone, hnotEqual, hnotEqual.trans ?_⟩
  rcases hone with ⟨he, hl, hg⟩ | ⟨he, hl, hg⟩ | ⟨he, hl, hg⟩
  · exact iff_of_false (not_not_intro he) (not_or_intro hl hg)
  · exact iff_of_true he (.inl hl)
  · exact iff_of_true he (.inr hg)

end Laws

end Hallmark
