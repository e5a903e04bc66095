/-!
# `Hallmark/Signature/Forest.lean` — forests

A forest is empty, or a root with the forest below it and the forest after it. The nodes on the way
from the last root down through the last nodes below it form the right edge: new nodes are attached
there (`attach?`), and the node of a level is found there (`lastAt?`, `mapLastAt`). Main statements:
a forest has as many nodes as its pre-order has members (`size_eq_length_preorder`), and attaching a
node puts it at the end of the pre-order (`preorder_attach?`).
-/

set_option autoImplicit false

namespace Hallmark

/-- Ordered trees side by side. -/
inductive Forest (α : Type) where
  | empty
  /-- The tree of `root` with `below` as its children, followed by the trees of `after`. -/
  | grow (root : α) (below after : Forest α)
deriving DecidableEq, Repr

structure Tree (α : Type) where
  root : α
  below : Forest α
deriving DecidableEq, Repr

namespace Forest

variable {α : Type}

instance : Inhabited (Forest α) := ⟨empty⟩

def size : Forest α → Nat
  | empty => 0
  | grow _ below after => 1 + below.size + after.size

/-- The nodes, each before those below it and these before those after it. -/
def preorder : Forest α → List α
  | empty => []
  | grow root below after => root :: (below.preorder ++ after.preorder)

theorem size_eq_length_preorder (f : Forest α) : f.size = f.preorder.length := by
  induction f with
  | empty => rfl
  | grow root below after ihb iha =>
    simp only [size, preorder, List.length_cons, List.length_append, ihb, iha]
    omega

def trees : Forest α → List (Tree α)
  | empty => []
  | grow root below after => ⟨root, below⟩ :: after.trees

def append : Forest α → Forest α → Forest α
  | empty, g => g
  | grow root below after, g => grow root below (after.append g)

instance : Append (Forest α) := ⟨append⟩

def ofTrees : List (Tree α) → Forest α
  | [] => empty
  | t :: ts => grow t.root t.below (ofTrees ts)

theorem trees_ofTrees (ts : List (Tree α)) : (ofTrees ts).trees = ts := by
  induction ts with
  | nil => rfl
  | cons t ts ih => simp [ofTrees, trees, ih]

/-- The node of a level on the right edge. -/
def lastAt? : Nat → Forest α → Option α
  | _, empty => none
  | 0, grow root _ empty => some root
  | level + 1, grow _ below empty => lastAt? level below
  | level, grow _ _ (grow r b a) => lastAt? level (grow r b a)

/-- Changes the node of a level on the right edge; nothing changes if there is none. -/
def mapLastAt (change : α → α) : Nat → Forest α → Forest α
  | _, empty => empty
  | 0, grow root below empty => grow (change root) below empty
  | level + 1, grow root below empty => grow root (mapLastAt change level below) empty
  | level, grow root below (grow r b a) => grow root below (mapLastAt change level (grow r b a))

/-- Adds a node of a level at the right edge: as the last root, or as the last child of the node one
level higher; `none` if the right edge does not reach that level. -/
def attach? (node : α) : Nat → Forest α → Option (Forest α)
  | 0, empty => some (grow node empty empty)
  | _ + 1, empty => none
  | 0, grow root below after => (attach? node 0 after).map fun f => grow root below f
  | level + 1, grow root below empty =>
    (attach? node level below).map fun f => grow root f empty
  | level + 1, grow root below (grow r b a) =>
    (attach? node (level + 1) (grow r b a)).map fun f => grow root below f

/-- A root can always be added. -/
theorem attach?_zero (node : α) (f : Forest α) :
    attach? node 0 f = some (f.append (grow node empty empty)) := by
  induction f with
  | empty => rfl
  | grow root below after _ iha => simp [attach?, append, iha]

/-- The new node comes last in the pre-order. -/
theorem preorder_attach? {node : α} {level : Nat} {f g : Forest α}
    (h : attach? node level f = some g) : g.preorder = f.preorder ++ [node] := by
  fun_induction attach? node level f generalizing g with
  | case1 => simp only [Option.some.injEq] at h; subst h; rfl
  | case2 => simp at h
  | case3 root below after ih =>
    obtain ⟨f, hf, rfl⟩ := Option.map_eq_some_iff.1 h
    simp [preorder, ih hf]
  | case4 level root below ih =>
    obtain ⟨f, hf, rfl⟩ := Option.map_eq_some_iff.1 h
    simp [preorder, ih hf]
  | case5 level root below r b a ih =>
    obtain ⟨f, hf, rfl⟩ := Option.map_eq_some_iff.1 h
    simp [preorder, ih hf]

end Forest

def Tree.size {α : Type} (t : Tree α) : Nat := 1 + t.below.size

def Tree.preorder {α : Type} (t : Tree α) : List α := t.root :: t.below.preorder

end Hallmark
