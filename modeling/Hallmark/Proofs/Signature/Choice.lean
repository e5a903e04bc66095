import Hallmark.Proofs.Signature.Outline
import Hallmark.Proofs.Signature.Ranking

/-!
# `Hallmark/Proofs/Signature/Choice.lean` — which signature identifies a buffer

Signatures are ranked by descending strength, and a tie keeps the order of the text. Roots stand in the
order of their lines, so the ranking is by strength and then by line (`pairwise_rank`), and the first
signature that has something to say about a buffer is the best of all that have (`IsChosen`). Main
statement: `identify_chosen`.
-/

set_option autoImplicit false

namespace Hallmark.Signature

open Forest

/-! ## Roots in the order of the text -/

theorem sublist_preorder {α : Type} (f : Forest α) :
    (f.trees.map Tree.root).Sublist f.preorder := by
  induction f with
  | empty => exact List.Sublist.refl _
  | grow root below after _ iha =>
    simp only [Forest.trees, Forest.preorder, List.map_cons]
    exact (iha.trans (List.sublist_append_right _ _)).cons_cons root

theorem pairwise_entryLines (lines : List (List Char)) :
    (entryLines lines).Pairwise fun a b => a.number < b.number := by
  have hnumbers : (lines.zipIdx 1).Pairwise fun p q => p.2 < q.2 := by
    rw [← List.pairwise_map, List.zipIdx_map_snd]
    exact List.pairwise_lt_range'
  rw [entryLines, List.pairwise_filterMap]
  refine hnumbers.imp ?_
  intro p q hlt a ha b hb
  obtain ⟨-, ha⟩ := Option.ite_none_right_eq_some.1 ha
  obtain ⟨-, hb⟩ := Option.ite_none_right_eq_some.1 hb
  cases ha
  cases hb
  exact hlt

theorem pairwise_trees {text : List Char} {forest : Forest Entry}
    (h : readForest text = .ok forest) :
    forest.trees.Pairwise fun a b => a.root.line < b.root.line := by
  obtain ⟨draft, hdraft, rfl⟩ := map_eq_ok_iff.1 h
  have hlines := map_line_of_listed (Draft.outlines_of_addLines hdraft).listed
  have hpreorder : draft.forest.preorder.Pairwise fun a b => a.line < b.line := by
    rw [← List.pairwise_map, hlines, List.pairwise_map]
    exact pairwise_entryLines (Text.lines text)
  have hroots : (draft.forest.trees.map Tree.root).Pairwise fun a b => a.line < b.line :=
    hpreorder.sublist (sublist_preorder draft.forest)
  rw [List.pairwise_map] at hroots
  exact hroots

/-! ## The ranking -/

/-- `a` is tried before `b`: it is stronger, or as strong and on a smaller line. -/
def Precedes (a b : Tree Entry) : Prop :=
  b.root.strength < a.root.strength ∨
    a.root.strength = b.root.strength ∧ a.root.line < b.root.line

theorem Precedes.asymm {a b : Tree Entry} (h : Precedes a b) : ¬ Precedes b a := by
  unfold Precedes at h ⊢
  omega

/-- Trees in the order of their lines are ranked by strength and then by line. -/
theorem pairwise_rank {trees : List (Tree Entry)}
    (h : trees.Pairwise fun a b => a.root.line < b.root.line) : (rank trees).Pairwise Precedes := by
  refine pairwise_rank_of ?mono ?weaker (fun _ hlt => .inl hlt) h
  case mono =>
    intro a b hab
    unfold Precedes at hab
    omega
  case weaker =>
    intro a b hline hle
    rcases Int.lt_or_eq_of_le hle with hlt | heq
    · exact .inl hlt
    · exact .inr ⟨heq.symm, hline⟩

/-! ## The choice -/

/-- The signature matches the buffer and has something to say about it. -/
def Describes (buffer : List UInt8) (tree : Tree Entry) : Prop :=
  ∃ description, describe? tree buffer = some description ∧ description.text ≠ []

/-- The tree comes before every other one that describes the buffer. -/
structure IsChosen (trees : List (Tree Entry)) (buffer : List UInt8) (tree : Tree Entry) : Prop where
  mem : tree ∈ trees
  describes : Describes buffer tree
  precedes : ∀ other ∈ trees, Describes buffer other → other ≠ tree → Precedes tree other

theorem IsChosen.unique {trees : List (Tree Entry)} {buffer : List UInt8} {a b : Tree Entry}
    (ha : IsChosen trees buffer a) (hb : IsChosen trees buffer b) : a = b := by
  refine Classical.byContradiction fun hne => ?_
  exact (ha.precedes b hb.mem hb.describes (Ne.symm hne)).asymm
    (hb.precedes a ha.mem ha.describes hne)

theorem IsChosen.perm {trees others : List (Tree Entry)} (hp : trees.Perm others)
    {buffer : List UInt8} {tree : Tree Entry} (h : IsChosen trees buffer tree) :
    IsChosen others buffer tree where
  mem := hp.mem_iff.1 h.mem
  describes := h.describes
  precedes other hmem := h.precedes other (hp.mem_iff.2 hmem)

theorem identifyBy?_eq_some_iff {buffer : List UInt8} {tree : Tree Entry}
    {identification : Identification} :
    identifyBy? buffer tree = some identification ↔
      ∃ description, describe? tree buffer = some description ∧ description.text ≠ [] ∧
        identification = ⟨String.ofList description.text, description.mime⟩ := by
  unfold identifyBy?
  cases h : describe? tree buffer with
  | none => simp
  | some description =>
    by_cases ht : description.text = []
    · simp [ht]
    · simp only [ht, List.isEmpty_iff, if_false]
      constructor
      · intro hi
        cases hi
        exact ⟨description, rfl, ht, rfl⟩
      · rintro ⟨other, hother, -, rfl⟩
        cases hother
        rfl

theorem identifyBy?_eq_none_iff {buffer : List UInt8} {tree : Tree Entry} :
    identifyBy? buffer tree = none ↔ ¬ Describes buffer tree := by
  rw [Option.eq_none_iff_forall_ne_some]
  constructor
  · rintro h ⟨description, hd, ht⟩
    exact h _ (identifyBy?_eq_some_iff.2 ⟨description, hd, ht, rfl⟩)
  · intro h identification hi
    obtain ⟨description, hd, ht, -⟩ := identifyBy?_eq_some_iff.1 hi
    exact h ⟨description, hd, ht⟩

/-- In ranked signatures, the first that describes a buffer is chosen. -/
theorem isChosen_of_findSome? {trees : List (Tree Entry)} (hp : trees.Pairwise Precedes)
    {buffer : List UInt8} {identification : Identification}
    (h : trees.findSome? (identifyBy? buffer) = some identification) :
    ∃ tree, IsChosen trees buffer tree ∧ identifyBy? buffer tree = some identification := by
  obtain ⟨before, tree, after, rfl, htree, hbefore⟩ := List.findSome?_eq_some_iff.1 h
  obtain ⟨description, hd, ht, -⟩ := identifyBy?_eq_some_iff.1 htree
  refine ⟨tree, ⟨by simp, ⟨description, hd, ht⟩, ?_⟩, htree⟩
  intro other hmem hother hne
  rcases List.mem_append.1 hmem with hmem | hmem
  · exact absurd hother (identifyBy?_eq_none_iff.1 (hbefore other hmem))
  · have hmem := (List.mem_cons.1 hmem).resolve_left hne
    exact (List.pairwise_cons.1 (List.pairwise_append.1 hp).2.1).1 other hmem

/-- The tree is the first one that says something about the buffer. -/
def Database.WonBy (database : Database) (buffer : List UInt8) (tree : Tree Entry) : Prop :=
  ∃ before after, database.signatures = before ++ tree :: after ∧
    (∀ other ∈ before, ¬ Describes buffer other) ∧ Describes buffer tree

/-- The buffer is identified by what wins. -/
theorem Database.identify_of_wonBy {database : Database} {buffer : List UInt8} {tree : Tree Entry}
    (h : database.WonBy buffer tree) : ∃ description, describe? tree buffer = some description ∧
      database.identify buffer = ⟨String.ofList description.text, description.mime⟩ := by
  obtain ⟨before, after, hsignatures, hbefore, description, hdescribe, htext⟩ := h
  have hfind : database.signatures.findSome? (identifyBy? buffer) =
      some ⟨String.ofList description.text, description.mime⟩ := by
    rw [hsignatures, List.findSome?_append, List.findSome?_eq_none_iff.2, Option.none_or,
      List.findSome?_cons, identifyBy?_eq_some_iff.2 ⟨description, hdescribe, htext, rfl⟩]
    exact fun other hother => identifyBy?_eq_none_iff.2 (hbefore other hother)
  exact ⟨description, hdescribe, by rw [Database.identify, hfind]⟩

/-- If nothing wins, the kind of the content is all there is to say. -/
theorem Database.exists_wonBy (database : Database) (buffer : List UInt8) :
    (∃ tree, database.WonBy buffer tree) ∨ database.identify buffer = Content.classify buffer := by
  cases hfind : database.signatures.findSome? (identifyBy? buffer) with
  | none => exact .inr (by rw [Database.identify, hfind])
  | some identification =>
    obtain ⟨before, tree, after, hsignatures, htree, hbefore⟩ := List.findSome?_eq_some_iff.1 hfind
    obtain ⟨description, hdescribe, htext, -⟩ := identifyBy?_eq_some_iff.1 htree
    exact .inl ⟨tree, before, after, hsignatures,
      fun other hother => identifyBy?_eq_none_iff.1 (hbefore other hother), description, hdescribe, htext⟩

theorem description_classify_ne_empty (buffer : List UInt8) :
    (Content.classify buffer).description ≠ "" := by
  unfold Content.classify
  split
  · decide
  · exact fun h => absurd (String.append_eq_empty_iff.1 h).1 (by decide)
  · exact fun h => absurd (String.append_eq_empty_iff.1 h).1 (by decide)
  · decide

theorem description_identify_ne_empty (database : Database) (buffer : List UInt8) :
    (database.identify buffer).description ≠ "" := by
  unfold Database.identify
  split
  · next identification h =>
    obtain ⟨tree, -, htree⟩ := List.exists_of_findSome?_eq_some h
    obtain ⟨description, -, ht, rfl⟩ := identifyBy?_eq_some_iff.1 htree
    simpa using ht
  · exact description_classify_ne_empty buffer

/-- **A buffer is identified by the strongest signature that describes it, of equally strong ones by the
one on the smallest line, and by the kind of its content if there is none.** -/
theorem identify_chosen (buffer : List UInt8) :
    (∀ text database, Database.read text = .ok database →
      ∃ forest, readForest text = .ok forest ∧
        ((∃ tree ∈ forest.trees, Describes buffer tree) →
          ∃ chosen, IsChosen forest.trees buffer chosen ∧
            (∀ tree, IsChosen forest.trees buffer tree → tree = chosen) ∧
            ∃ description, describe? chosen buffer = some description ∧
              database.identify buffer = ⟨String.ofList description.text, description.mime⟩) ∧
        ((¬ ∃ tree ∈ forest.trees, Describes buffer tree) →
          database.identify buffer = Content.classify buffer)) ∧
    ∀ database : Database, (database.identify buffer).description ≠ "" := by
  refine ⟨?_, fun database => description_identify_ne_empty database buffer⟩
  intro text database h
  obtain ⟨forest, hforest, rfl⟩ := map_eq_ok_iff.1 h
  have hperm := rank_perm forest.trees
  have hp := pairwise_rank (pairwise_trees hforest)
  refine ⟨forest, hforest, ?_, ?_⟩
  · rintro ⟨tree, hmem, hdescribes⟩
    cases hfind : (rank forest.trees).findSome? (identifyBy? buffer) with
    | none =>
      have hnone := List.findSome?_eq_none_iff.1 hfind tree (hperm.mem_iff.2 hmem)
      exact absurd hdescribes (identifyBy?_eq_none_iff.1 hnone)
    | some identification =>
      obtain ⟨chosen, hchosen, hby⟩ := isChosen_of_findSome? hp hfind
      obtain ⟨description, hd, -, rfl⟩ := identifyBy?_eq_some_iff.1 hby
      refine ⟨chosen, hchosen.perm hperm, ?_, description, hd, ?_⟩
      · exact fun other hother => hother.unique (hchosen.perm hperm)
      · rw [Database.identify, hfind]
  · intro hnone
    have hfind : (rank forest.trees).findSome? (identifyBy? buffer) = none := by
      rw [List.findSome?_eq_none_iff]
      intro tree hmem
      rw [identifyBy?_eq_none_iff]
      exact fun hdescribes => hnone ⟨tree, hperm.mem_iff.1 hmem, hdescribes⟩
    rw [Database.identify, hfind]

/-- The strongest signature has nothing to say, and of two equally strong ones the first is chosen. -/
theorem identify_chosen_tie :
    ∃ database forest chosen,
      Database.read "0 byte x any\n0 string AB ab\n1 string BC bc\n0 string ABC\n".toList =
        .ok database ∧
      readForest "0 byte x any\n0 string AB ab\n1 string BC bc\n0 string ABC\n".toList = .ok forest ∧
      IsChosen forest.trees [0x41, 0x42, 0x43] chosen ∧
      database.identify [0x41, 0x42, 0x43] = ⟨"ab", none⟩ := by
  have hread : (Database.read
      "0 byte x any\n0 string AB ab\n1 string BC bc\n0 string ABC\n".toList).map
        (fun d => d.identify [0x41, 0x42, 0x43]) = .ok ⟨"ab", none⟩ := by decide +kernel
  have hsays : (readForest
      "0 byte x any\n0 string AB ab\n1 string BC bc\n0 string ABC\n".toList).map
        (fun f => f.trees.any fun t => (identifyBy? [0x41, 0x42, 0x43] t).isSome) = .ok true := by
    decide +kernel
  obtain ⟨database, hdatabase, hidentify⟩ := map_eq_ok_iff.1 hread
  obtain ⟨forest, hforest, hchosen, -⟩ := (identify_chosen [0x41, 0x42, 0x43]).1 _ _ hdatabase
  rw [hforest] at hsays
  obtain ⟨tree, hmem, hsome⟩ := List.any_eq_true.1 (Except.ok.inj hsays)
  obtain ⟨identification, hi⟩ := Option.isSome_iff_exists.1 hsome
  obtain ⟨description, hd, ht, -⟩ := identifyBy?_eq_some_iff.1 hi
  obtain ⟨chosen, hc, -⟩ := hchosen ⟨tree, hmem, description, hd, ht⟩
  exact ⟨database, forest, chosen, hdatabase, hforest, hc, hidentify⟩

end Hallmark.Signature
