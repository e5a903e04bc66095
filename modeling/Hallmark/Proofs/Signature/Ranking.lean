import Hallmark.Signature.Database

/-!
# `Hallmark/Proofs/Signature/Ranking.lean` — what the ranking of signatures depends on

The ranking is a stable sort (`pairwise_rank_of`). Trees of different strengths go in in either order, so
neighbours that have no strength in common can change places (`rank_swap`). What is left out of a list
leaves the ranking of the rest as it was (`filter_rank`), so what finds nothing in a buffer can be left out
(`findSome?_rank_eq`). Only the strengths of the roots count (`rank_map`).
-/

set_option autoImplicit false

namespace Hallmark.Signature

/-! ## Changing places -/

theorem insertRanked_of_lt {weak strong : Tree Entry} (h : weak.root.strength < strong.root.strength)
    (trees : List (Tree Entry)) :
    insertRanked strong (insertRanked weak trees) = insertRanked weak (insertRanked strong trees) := by
  have hle : weak.root.strength ≤ strong.root.strength := Int.le_of_lt h
  have hnle : ¬ strong.root.strength ≤ weak.root.strength := Int.not_le.2 h
  induction trees with
  | nil => simp [insertRanked, hle, hnle]
  | cons t ts ih =>
    by_cases hweak : t.root.strength ≤ weak.root.strength
    · have hstrong : t.root.strength ≤ strong.root.strength := Int.le_trans hweak hle
      simp [insertRanked, hweak, hstrong, hle, hnle]
    · by_cases hstrong : t.root.strength ≤ strong.root.strength
      · simp [insertRanked, hweak, hstrong, hnle]
      · simp [insertRanked, hweak, hstrong, ih]

/-- Trees of different strengths go in in either order. -/
theorem insertRanked_comm {a b : Tree Entry} (h : a.root.strength ≠ b.root.strength)
    (trees : List (Tree Entry)) :
    insertRanked a (insertRanked b trees) = insertRanked b (insertRanked a trees) := by
  rcases Int.lt_or_gt_of_ne h with hlt | hlt
  · exact (insertRanked_of_lt hlt trees).symm
  · exact insertRanked_of_lt hlt trees

theorem insertRanked_foldr {tree : Tree Entry} {trees : List (Tree Entry)}
    (h : ∀ t ∈ trees, tree.root.strength ≠ t.root.strength) (rest : List (Tree Entry)) :
    insertRanked tree (trees.foldr insertRanked rest) =
      trees.foldr insertRanked (insertRanked tree rest) := by
  induction trees with
  | nil => rfl
  | cons t ts ih =>
    rw [List.foldr_cons, List.foldr_cons, insertRanked_comm (h t List.mem_cons_self),
      ih fun u hu => h u (List.mem_cons_of_mem t hu)]

theorem foldr_insertRanked_swap {xs ys : List (Tree Entry)}
    (h : ∀ x ∈ xs, ∀ y ∈ ys, x.root.strength ≠ y.root.strength) (rest : List (Tree Entry)) :
    xs.foldr insertRanked (ys.foldr insertRanked rest) =
      ys.foldr insertRanked (xs.foldr insertRanked rest) := by
  induction xs with
  | nil => rfl
  | cons x xs ih =>
    rw [List.foldr_cons, List.foldr_cons, ih fun u hu => h u (List.mem_cons_of_mem x hu),
      insertRanked_foldr (h x List.mem_cons_self)]

/-- Neighbours with no strength in common can change places. -/
theorem rank_swap (before : List (Tree Entry)) {xs ys : List (Tree Entry)} (after : List (Tree Entry))
    (h : ∀ x ∈ xs, ∀ y ∈ ys, x.root.strength ≠ y.root.strength) :
    rank (before ++ (xs ++ (ys ++ after))) = rank (before ++ (ys ++ (xs ++ after))) := by
  simp only [rank, List.foldr_append]
  rw [foldr_insertRanked_swap h]

/-! ## The order of a ranking -/

section Order

variable {R S : Tree Entry → Tree Entry → Prop} {trees : List (Tree Entry)}

/-- A tree that is no weaker than the first is no weaker than any. -/
theorem strength_le_of_head (mono : ∀ {a b}, R a b → b.root.strength ≤ a.root.strength)
    {tree t : Tree Entry} {ts : List (Tree Entry)} (h : (t :: ts).Pairwise R)
    (hle : t.root.strength ≤ tree.root.strength) :
    ∀ u ∈ t :: ts, u.root.strength ≤ tree.root.strength := by
  intro u hu
  rcases List.mem_cons.1 hu with rfl | hu
  · exact hle
  · exact Int.le_trans (mono ((List.pairwise_cons.1 h).1 u hu)) hle

theorem pairwise_insertRanked (mono : ∀ {a b}, R a b → b.root.strength ≤ a.root.strength)
    {tree : Tree Entry} (weaker : ∀ t ∈ trees, t.root.strength ≤ tree.root.strength → R tree t)
    (stronger : ∀ t ∈ trees, tree.root.strength < t.root.strength → R t tree)
    (h : trees.Pairwise R) : (insertRanked tree trees).Pairwise R := by
  induction trees with
  | nil => exact List.pairwise_singleton _ _
  | cons t ts ih =>
    obtain ⟨ht, hts⟩ := List.pairwise_cons.1 h
    unfold insertRanked
    split
    · next hle =>
      refine List.pairwise_cons.2 ⟨fun u hu => ?_, h⟩
      exact weaker u hu (strength_le_of_head mono h hle u hu)
    · next hlt =>
      have hrest := ih (fun u hu => weaker u (List.mem_cons_of_mem t hu))
        (fun u hu => stronger u (List.mem_cons_of_mem t hu)) hts
      refine List.pairwise_cons.2 ⟨?_, hrest⟩
      intro u hu
      rcases List.mem_cons.1 ((insertRanked_perm tree ts).mem_iff.1 hu) with rfl | hu
      · exact stronger t List.mem_cons_self (Int.not_le.1 hlt)
      · exact ht u hu

/-- Trees that stand in one order before they are ranked stand in another one after it: the stronger
first, and the others as they stood. -/
theorem pairwise_rank_of (mono : ∀ {a b}, R a b → b.root.strength ≤ a.root.strength)
    (weaker : ∀ {a b}, S a b → b.root.strength ≤ a.root.strength → R a b)
    (stronger : ∀ {a b}, S a b → a.root.strength < b.root.strength → R b a)
    (h : trees.Pairwise S) : (rank trees).Pairwise R := by
  induction trees with
  | nil => exact List.Pairwise.nil
  | cons tree trees ih =>
    obtain ⟨htree, htrees⟩ := List.pairwise_cons.1 h
    have hbefore : ∀ t ∈ rank trees, S tree t := fun t ht => htree t ((rank_perm trees).mem_iff.1 ht)
    exact pairwise_insertRanked mono (fun t ht => weaker (hbefore t ht))
      (fun t ht => stronger (hbefore t ht)) (ih htrees)

end Order

/-- No tree is stronger than one before it. -/
def IsRanked (trees : List (Tree Entry)) : Prop :=
  trees.Pairwise fun a b => b.root.strength ≤ a.root.strength

theorem isRanked_rank (trees : List (Tree Entry)) : IsRanked (rank trees) :=
  pairwise_rank_of (fun h => h) (fun _ hle => hle) (fun _ hlt => Int.le_of_lt hlt)
    (List.pairwise_of_forall fun _ _ => trivial)

/-! ## Leaving out -/

/-- A tree goes in front of trees that are not stronger. -/
theorem insertRanked_eq_cons {tree : Tree Entry} {trees : List (Tree Entry)}
    (h : ∀ t ∈ trees, t.root.strength ≤ tree.root.strength) : insertRanked tree trees = tree :: trees := by
  cases trees with
  | nil => rfl
  | cons t ts => exact if_pos (h t List.mem_cons_self)

theorem filter_insertRanked (keep : Tree Entry → Bool) (tree : Tree Entry) {trees : List (Tree Entry)}
    (h : IsRanked trees) :
    (insertRanked tree trees).filter keep =
      if keep tree then insertRanked tree (trees.filter keep) else trees.filter keep := by
  induction trees with
  | nil => cases hk : keep tree <;> simp [insertRanked, hk]
  | cons t ts ih =>
    by_cases hle : t.root.strength ≤ tree.root.strength
    · -- What is kept of `t` and the trees after it is not stronger either.
      have hkept : ∀ u ∈ (t :: ts).filter keep, u.root.strength ≤ tree.root.strength :=
        fun u hu => strength_le_of_head id h hle u (List.mem_filter.1 hu).1
      rw [insertRanked, if_pos hle, insertRanked_eq_cons hkept, List.filter_cons]
    · rw [insertRanked, if_neg hle, List.filter_cons, List.filter_cons, ih (List.pairwise_cons.1 h).2]
      cases keep t <;> cases keep tree <;> simp [insertRanked, hle]

/-- The ranking of what is kept is what is kept of the ranking. -/
theorem filter_rank (keep : Tree Entry → Bool) (trees : List (Tree Entry)) :
    (rank trees).filter keep = rank (trees.filter keep) := by
  induction trees with
  | nil => rfl
  | cons tree trees ih =>
    rw [rank_cons, filter_insertRanked keep tree (isRanked_rank trees), ih, List.filter_cons]
    cases keep tree <;> rfl

/-- What finds nothing can be left out. -/
theorem findSome?_filter_of {α β : Type} {f : α → Option β} {keep : α → Bool} {l : List α}
    (h : ∀ a ∈ l, keep a = false → f a = none) : (l.filter keep).findSome? f = l.findSome? f := by
  induction l with
  | nil => rfl
  | cons a l ih =>
    have hrest := ih fun b hb => h b (List.mem_cons_of_mem a hb)
    cases hkeep : keep a with
    | false => simp [hkeep, hrest, h a List.mem_cons_self hkeep]
    | true => simp [List.findSome?_cons, hkeep, hrest]

theorem findSome?_filter_isSome {α β : Type} (f : α → Option β) (l : List α) :
    (l.filter fun a => (f a).isSome).findSome? f = l.findSome? f :=
  findSome?_filter_of fun _ _ hnone => by simpa using hnone

/-- What a ranking finds, it finds among the trees that find something. -/
theorem findSome?_rank_eq {β : Type} (f : Tree Entry → Option β) {trees others : List (Tree Entry)}
    (h : (trees.filter fun t => (f t).isSome) = others.filter fun t => (f t).isSome) :
    (rank trees).findSome? f = (rank others).findSome? f := by
  rw [← findSome?_filter_isSome f (rank trees), filter_rank, h, ← filter_rank,
    findSome?_filter_isSome]

/-! ## Changes that keep the strengths -/

theorem rank_map {change : Tree Entry → Tree Entry}
    (h : ∀ t, (change t).root.strength = t.root.strength) (trees : List (Tree Entry)) :
    rank (trees.map change) = (rank trees).map change := by
  have insert : ∀ (tree : Tree Entry) (ts : List (Tree Entry)),
      insertRanked (change tree) (ts.map change) = (insertRanked tree ts).map change := by
    intro tree ts
    induction ts with
    | nil => rfl
    | cons t ts ih =>
      rw [List.map_cons, insertRanked, insertRanked, h, h, ih]
      split <;> rfl
  induction trees with
  | nil => rfl
  | cons tree trees ih => rw [List.map_cons, rank_cons, rank_cons, ih, insert]

end Hallmark.Signature
