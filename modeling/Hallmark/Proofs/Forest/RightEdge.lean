import Hallmark.Proofs.Forest.Lineage

/-!
# `Hallmark/Proofs/Forest/RightEdge.lean` — growing at the right edge

`edge` lists the nodes that a new node can be attached below, `graft` puts a whole forest there, and
proofs follow the way along the right edge that leads there (`Reaches`). Attaching a node is grafting a
leaf (`attach?_eq_some_iff`), so what `graft` does to the right edge and to the lineage says all about
`attach?`. Main statements: a graft comes last in the lineage, below the first nodes of the right edge
(`lineage_graft`), and grafts in the order of their pre-order build the forest that they are taken from
(`graft_graft`, `graft_below`).
-/

set_option autoImplicit false

namespace Hallmark.Forest

variable {α : Type}

/-! ## The right edge -/

/-- The nodes of the right edge, from the last root down. -/
def edge : Forest α → List α
  | empty => []
  | grow root below empty => root :: below.edge
  | grow _ _ (grow r b a) => (grow r b a).edge

@[simp] theorem edge_empty : (empty : Forest α).edge = [] := rfl

@[simp] theorem edge_grow_empty (root : α) (below : Forest α) :
    (grow root below empty).edge = root :: below.edge := rfl

@[simp] theorem edge_grow_grow (root r : α) (below b a : Forest α) :
    (grow root below (grow r b a)).edge = (grow r b a).edge := by
  rw [edge]

/-- The node of a level on the right edge is the one at that place of the list. -/
theorem lastAt?_eq_getElem? (level : Nat) (f : Forest α) : lastAt? level f = f.edge[level]? := by
  fun_induction lastAt? level f with
  | case1 => simp
  | case2 => rfl
  | case3 => rename_i ih; simp [ih]
  | case4 => rename_i ih; rw [edge_grow_grow, ih]

/-- A place for a node on a level is found along the right edge: one case for each step of the way. -/
inductive Reaches : Nat → Forest α → Prop where
  | root (f : Forest α) : Reaches 0 f
  | last {level : Nat} (root : α) {below : Forest α} (h : Reaches level below) :
      Reaches (level + 1) (grow root below empty)
  | next {level : Nat} (root : α) (below : Forest α) {r : α} {b a : Forest α}
      (h : Reaches (level + 1) (grow r b a)) :
      Reaches (level + 1) (grow root below (grow r b a))

theorem reaches_of_le {level : Nat} {f : Forest α} (h : level ≤ f.edge.length) : Reaches level f := by
  induction f generalizing level with
  | empty =>
    obtain rfl : level = 0 := by simpa using h
    exact .root empty
  | grow root below after ihb iha =>
    cases level with
    | zero => exact .root _
    | succ level =>
      cases after with
      | empty => exact .last root (ihb (by simpa using h))
      | grow r b a =>
        rw [edge_grow_grow] at h
        exact .next root below (iha h)

/-! ## Forests side by side -/

@[simp] theorem empty_append (f : Forest α) : empty.append f = f := rfl

@[simp] theorem append_empty (f : Forest α) : f.append empty = f := by
  induction f with
  | empty => rfl
  | grow root below after _ iha => simp only [append, iha]

theorem append_assoc (f g h : Forest α) : (f.append g).append h = f.append (g.append h) := by
  induction f with
  | empty => rfl
  | grow root below after _ iha => simp only [append, iha]

theorem trees_append (f g : Forest α) : (f.append g).trees = f.trees ++ g.trees := by
  induction f with
  | empty => rfl
  | grow root below after _ iha => simp [append, trees, iha]

theorem lineage_append (above : List α) (f g : Forest α) :
    (f.append g).lineage above = f.lineage above ++ g.lineage above := by
  induction f with
  | empty => rfl
  | grow root below after _ iha =>
    simp only [append, lineage, iha, List.cons_append, List.append_assoc]

theorem edge_append_grow (f below after : Forest α) (root : α) :
    (f.append (grow root below after)).edge = (grow root below after).edge := by
  induction f with
  | empty => rfl
  | grow r b a _ iha =>
    cases a with
    | empty => exact edge_grow_grow _ _ _ _ _
    | grow r' b' a' => exact (edge_grow_grow _ _ _ _ _).trans iha

/-- A place that the second of two forests side by side has is a place of both together. -/
theorem le_length_edge_append {level : Nat} (f : Forest α) {g : Forest α}
    (h : level ≤ g.edge.length) : level ≤ (f.append g).edge.length := by
  cases g with
  | empty =>
    obtain rfl : level = 0 := by simpa using h
    exact Nat.zero_le _
  | grow root below after => rwa [edge_append_grow]

/-! ## Grafts -/

def leaf (node : α) : Forest α := grow node empty empty

/-- Puts a forest at the right edge, its roots on a level: after the last root, or below the node one
level higher. Nothing changes if the right edge does not reach that node. -/
def graft : Nat → Forest α → Forest α → Forest α
  | 0, f, g => f.append g
  | _ + 1, empty, _ => empty
  | level + 1, grow root below empty, g => grow root (graft level below g) empty
  | level + 1, grow root below (grow r b a), g => grow root below (graft (level + 1) (grow r b a) g)

@[simp] theorem graft_zero (f g : Forest α) : graft 0 f g = f.append g := by
  rw [graft]

@[simp] theorem graft_succ_grow_empty (level : Nat) (root : α) (below g : Forest α) :
    graft (level + 1) (grow root below empty) g = grow root (graft level below g) empty := rfl

@[simp] theorem graft_succ_grow_grow (level : Nat) (root r : α) (below b a g : Forest α) :
    graft (level + 1) (grow root below (grow r b a)) g =
      grow root below (graft (level + 1) (grow r b a) g) := by
  rw [graft]

theorem graft_empty (level : Nat) (f : Forest α) : graft level f empty = f := by
  induction f generalizing level with
  | empty =>
    cases level with
    | zero => rfl
    | succ => rfl
  | grow root below after ihb iha =>
    cases level with
    | zero => simp
    | succ level =>
      cases after with
      | empty => rw [graft_succ_grow_empty, ihb]
      | grow r b a => rw [graft_succ_grow_grow, iha]

/-- What stands before a forest is not touched by a graft on it. -/
theorem graft_append {level : Nat} (f : Forest α) {g : Forest α} (h : Forest α)
    (hle : level ≤ g.edge.length) : graft level (f.append g) h = f.append (graft level g h) := by
  cases level with
  | zero => simp [append_assoc]
  | succ level =>
    cases g with
    | empty => simp at hle
    | grow root below after =>
      induction f with
      | empty => rfl
      | grow r b a _ iha =>
        cases a with
        | empty => exact graft_succ_grow_grow _ _ _ _ _ _ _
        | grow r' b' a' => exact (graft_succ_grow_grow _ _ _ _ _ _ _).trans (congrArg (grow r b) iha)

/-- A graft comes last in the lineage, below the first nodes of the right edge. -/
theorem lineage_graft {level : Nat} {f : Forest α} (g : Forest α) (above : List α)
    (h : level ≤ f.edge.length) :
    (graft level f g).lineage above =
      f.lineage above ++ g.lineage ((f.edge.take level).reverse ++ above) := by
  replace h := reaches_of_le h
  induction h generalizing above with
  | root f => simp [lineage_append]
  | last root _ ih => simp [lineage, ih]
  | next root below _ ih =>
    rw [graft_succ_grow_grow, edge_grow_grow, lineage, ih, ← List.append_assoc, ← List.cons_append]
    rfl

theorem exists_graft_grow (level : Nat) (r : α) (b a g : Forest α) :
    ∃ b' a', graft level (grow r b a) g = grow r b' a' := by
  cases level with
  | zero => exact ⟨_, _, graft_zero _ _⟩
  | succ level =>
    cases a with
    | empty => exact ⟨_, _, rfl⟩
    | grow => exact ⟨_, _, graft_succ_grow_grow _ _ _ _ _ _ _⟩

/-- After a graft the right edge goes on along the graft. -/
theorem edge_graft {level : Nat} {f : Forest α} (root : α) (below after : Forest α)
    (h : level ≤ f.edge.length) :
    (graft level f (grow root below after)).edge =
      f.edge.take level ++ (grow root below after).edge := by
  replace h := reaches_of_le h
  induction h with
  | root f => simp [edge_append_grow]
  | last _ _ ih => simp [ih]
  | @next level _ _ r b a _ ih =>
    obtain ⟨b₂, a₂, hg⟩ := exists_graft_grow (level + 1) r b a (grow root below after)
    rw [graft_succ_grow_grow, edge_grow_grow, ← ih, hg, edge_grow_grow]

/-- The leaf that was grafted last is the node of its level. -/
theorem lastAt?_graft_leaf {level : Nat} {f : Forest α} (node : α) (h : level ≤ f.edge.length) :
    lastAt? level (graft level f (leaf node)) = some node := by
  rw [lastAt?_eq_getElem?, leaf, edge_graft _ _ _ h,
    List.getElem?_append_right (List.length_take_le _ _), List.length_take, Nat.min_eq_left h,
    Nat.sub_self]
  rfl

/-- A node can be attached one level below the end of the right edge, and on every level higher. -/
theorem attach?_eq_some_iff {node : α} {level : Nat} {f g : Forest α} :
    attach? node level f = some g ↔ level ≤ f.edge.length ∧ graft level f (leaf node) = g := by
  fun_induction attach? node level f generalizing g with
  | case1 => simp [leaf]
  | case2 => simp
  | case3 root below after ih =>
    simp [ih, append]
  | case4 level root below ih =>
    simp [ih, and_assoc]
  | case5 level root below r b a ih =>
    simp [ih, and_assoc]

theorem attach?_eq_none_iff {node : α} {level : Nat} {f : Forest α} :
    attach? node level f = none ↔ f.edge.length < level := by
  rw [Option.eq_none_iff_forall_ne_some]
  constructor
  · intro h
    refine Nat.lt_of_not_le fun hle => ?_
    exact h _ (attach?_eq_some_iff.2 ⟨hle, rfl⟩)
  · intro h g hg
    exact absurd (attach?_eq_some_iff.1 hg).1 (Nat.not_le_of_lt h)

theorem mapLastAt_append_leaf (f : Forest α) (node : α) (change : α → α) :
    mapLastAt change 0 (f.append (leaf node)) = f.append (leaf (change node)) := by
  induction f with
  | empty => rfl
  | grow root below after _ iha =>
    cases after with
    | empty => rfl
    | grow r b a =>
      simp only [append] at iha ⊢
      rw [mapLastAt, iha]

/-- Changing the node of its level changes the leaf that was grafted last. -/
theorem mapLastAt_graft_leaf {level : Nat} {f : Forest α} (node : α) (change : α → α)
    (h : level ≤ f.edge.length) :
    mapLastAt change level (graft level f (leaf node)) = graft level f (leaf (change node)) := by
  replace h := reaches_of_le h
  induction h with
  | root f =>
    rw [graft_zero, graft_zero]
    exact mapLastAt_append_leaf f node change
  | last _ _ ih => simp [mapLastAt, ih]
  | @next level _ _ r b a _ ih =>
    obtain ⟨b₂, a₂, hg⟩ := exists_graft_grow (level + 1) r b a (leaf node)
    rw [graft_succ_grow_grow, graft_succ_grow_grow, ← ih, hg, mapLastAt]

/-! ## Grafts one after the other -/

/-- Two grafts on one level stand side by side. -/
theorem graft_graft {level : Nat} {f : Forest α} (g h : Forest α) (hle : level ≤ f.edge.length) :
    graft level (graft level f g) h = graft level f (g.append h) := by
  replace hle := reaches_of_le hle
  induction hle with
  | root f => simp [append_assoc]
  | last _ _ ih => simp [ih]
  | @next level _ _ r b a _ ih =>
    obtain ⟨b₂, a₂, hg⟩ := exists_graft_grow (level + 1) r b a g
    rw [graft_succ_grow_grow, graft_succ_grow_grow, ← ih, hg, graft_succ_grow_grow]

theorem graft_one_append_leaf (f : Forest α) (node : α) (g : Forest α) :
    graft 1 (f.append (leaf node)) g = f.append (grow node g empty) := by
  induction f with
  | empty => rfl
  | grow root below after _ iha =>
    cases after with
    | empty => rfl
    | grow r b a =>
      simp only [append] at iha ⊢
      rw [graft_succ_grow_grow, iha]

/-- What is grafted one level below a fresh leaf becomes what is below it. -/
theorem graft_below {level : Nat} {f : Forest α} (node : α) (g : Forest α)
    (h : level ≤ f.edge.length) :
    graft (level + 1) (graft level f (leaf node)) g = graft level f (grow node g empty) := by
  replace h := reaches_of_le h
  induction h with
  | root f =>
    rw [graft_zero, graft_zero]
    exact graft_one_append_leaf f node g
  | last _ _ ih => simp [ih]
  | @next level _ _ r b a _ ih =>
    obtain ⟨b₂, a₂, hg⟩ := exists_graft_grow (level + 1) r b a (leaf node)
    rw [graft_succ_grow_grow, graft_succ_grow_grow, ← ih, hg, graft_succ_grow_grow]

end Hallmark.Forest
