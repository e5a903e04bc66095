import Hallmark.Proofs.Forest.RightEdge

/-!
# `Hallmark/Proofs/Forest/Mapping.lean` — changing every node of a forest

`map` changes the nodes and keeps the shape, so it commutes with everything that only looks at the
shape: the trees, forests side by side, the right edge and grafts (`map_graft`).
-/

set_option autoImplicit false

namespace Hallmark

def Forest.map {α β : Type} (change : α → β) : Forest α → Forest β
  | empty => empty
  | grow root below after => grow (change root) (below.map change) (after.map change)

def Tree.map {α β : Type} (change : α → β) (tree : Tree α) : Tree β :=
  ⟨change tree.root, tree.below.map change⟩

namespace Forest

variable {α β : Type} (change : α → β)

@[simp] theorem map_empty : (empty : Forest α).map change = empty := rfl

@[simp] theorem map_grow (root : α) (below after : Forest α) :
    (grow root below after).map change = grow (change root) (below.map change) (after.map change) :=
  rfl

@[simp] theorem map_leaf (node : α) : (leaf node).map change = leaf (change node) := rfl

theorem trees_map (f : Forest α) : (f.map change).trees = f.trees.map (Tree.map change) := by
  induction f with
  | empty => rfl
  | grow root below after _ iha => simp [trees, Tree.map, iha]

theorem map_append (f g : Forest α) : (f.append g).map change = (f.map change).append (g.map change) := by
  induction f with
  | empty => rfl
  | grow root below after _ iha => simp [append, iha]

theorem map_map {γ : Type} (next : β → γ) (f : Forest α) :
    (f.map change).map next = f.map (next ∘ change) := by
  induction f with
  | empty => rfl
  | grow root below after ihb iha => simp [ihb, iha]

theorem edge_map (f : Forest α) : (f.map change).edge = f.edge.map change := by
  induction f with
  | empty => rfl
  | grow root below after ihb iha =>
    cases after with
    | empty => simp [ihb]
    | grow r b a => simpa using iha

/-- The shape decides where a graft goes. -/
theorem map_graft (level : Nat) (f g : Forest α) :
    (graft level f g).map change = graft level (f.map change) (g.map change) := by
  induction f generalizing level with
  | empty =>
    cases level with
    | zero => rfl
    | succ => rfl
  | grow root below after ihb iha =>
    cases level with
    | zero => simp [map_append]
    | succ level =>
      cases after with
      | empty => simp [ihb]
      | grow r b a => simpa using iha (level + 1)

end Forest

end Hallmark
