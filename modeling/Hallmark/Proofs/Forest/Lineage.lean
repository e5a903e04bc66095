import Hallmark.Signature.Forest

/-!
# `Hallmark/Proofs/Forest/Lineage.lean` — the nodes above a node

`lineage` lists the nodes of a forest in pre-order, each with the nodes above it: its depth is how many
there are, and its parent is the first of them. Main statement: no links are needed to find a parent in
a pre-order, since it is the closest node before that stands one level higher
(`find?_reverse_lineage`).
-/

set_option autoImplicit false

namespace Hallmark.Forest

variable {α : Type}

/-- The nodes in pre-order, each with the nodes above it, the nearest first. The roots stand below
`above`. -/
def lineage (above : List α) : Forest α → List (List α × α)
  | empty => []
  | grow root below after =>
    (above, root) :: (below.lineage (root :: above) ++ after.lineage above)

@[simp] theorem lineage_empty (above : List α) : (empty : Forest α).lineage above = [] := rfl

/-- Without the nodes above, what is left is the pre-order. -/
theorem map_snd_lineage (above : List α) (f : Forest α) :
    (f.lineage above).map Prod.snd = f.preorder := by
  induction f generalizing above with
  | empty => rfl
  | grow root below after ihb iha =>
    simp only [lineage, preorder, List.map_cons, List.map_append, ihb, iha]

/-- Nothing comes between the roots and what they stand below. -/
theorem suffix_of_mem_lineage {above : List α} {f : Forest α} {p : List α × α}
    (h : p ∈ f.lineage above) : above <:+ p.1 := by
  induction f generalizing above with
  | empty => simp at h
  | grow root below after ihb iha =>
    rcases List.mem_cons.1 h with rfl | h
    · exact List.suffix_refl _
    · rcases List.mem_append.1 h with h | h
      · exact (List.suffix_cons root above).trans (ihb h)
      · exact iha h

theorem length_le_of_mem_lineage {above : List α} {f : Forest α} {p : List α × α}
    (h : p ∈ f.lineage above) : above.length ≤ p.1.length :=
  (suffix_of_mem_lineage h).length_le

/-- **The parent of a node is the closest node before it that stands one level higher.** -/
theorem find?_reverse_lineage {above chain : List α} {f : Forest α} {node : α}
    {before after : List (List α × α)} (h : f.lineage above = before ++ (chain, node) :: after)
    (hdeep : above.length < chain.length) :
    ∃ parent rest, chain = parent :: rest ∧
      before.reverse.find? (fun p => p.1.length + 1 = chain.length) = some (rest, parent) := by
  induction f generalizing above before after with
  | empty => simp at h
  | grow root below rest ihb iha =>
    cases before with
    | nil =>
      -- The root itself stands no deeper than `above`.
      simp only [lineage, List.nil_append, List.cons.injEq, Prod.mk.injEq] at h
      rw [h.1.1] at hdeep
      exact absurd hdeep (Nat.lt_irrefl _)
    | cons first before =>
      simp only [lineage, List.cons_append, List.cons.injEq] at h
      obtain ⟨rfl, h⟩ := h
      rcases List.append_eq_append_iff.1 h with ⟨mid, rfl, hmid⟩ | ⟨mid, hbelow, hmid⟩
      · obtain ⟨parent, more, hchain, hfind⟩ := iha hmid hdeep
        refine ⟨parent, more, hchain, ?_⟩
        rw [List.reverse_cons, List.reverse_append, List.append_assoc, List.find?_append, hfind]
        rfl
      · cases mid with
        | nil =>
          -- The node is the first after everything below the root.
          have hfirst : rest.lineage above = [] ++ (chain, node) :: after := hmid.symm
          obtain ⟨parent, more, -, hfind⟩ := iha hfirst hdeep
          simp at hfind
        | cons p mid =>
          simp only [List.cons_append, List.cons.injEq] at hmid
          obtain ⟨rfl, -⟩ := hmid
          by_cases hd : above.length + 1 < chain.length
          · obtain ⟨parent, more, hchain, hfind⟩ := ihb hbelow hd
            refine ⟨parent, more, hchain, ?_⟩
            rw [List.reverse_cons, List.find?_append, hfind]
            rfl
          · have hmem : (chain, node) ∈ below.lineage (root :: above) := by
              rw [hbelow]
              simp
            have hroot : chain = root :: above :=
              ((suffix_of_mem_lineage hmem).eq_of_length_le (by simp; omega)).symm
            refine ⟨root, above, hroot, ?_⟩
            have hnone : before.reverse.find? (fun p => p.1.length + 1 = chain.length) = none := by
              rw [List.find?_eq_none]
              intro p hp hlen
              have hp : p ∈ below.lineage (root :: above) := by
                rw [hbelow]
                exact List.mem_append_left _ (List.mem_reverse.1 hp)
              have := length_le_of_mem_lineage hp
              simp only [List.length_cons, decide_eq_true_eq] at this hlen
              omega
            rw [List.reverse_cons, List.find?_append, hnone, hroot]
            simp

end Hallmark.Forest

namespace Hallmark

/-- The nodes of a tree in pre-order, each with the nodes above it, the nearest first. -/
def Tree.lineage {α : Type} (tree : Tree α) : List (List α × α) :=
  ([], tree.root) :: tree.below.lineage [tree.root]

end Hallmark
