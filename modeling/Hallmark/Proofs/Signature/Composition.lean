import Hallmark.Proofs.Forest.Mapping
import Hallmark.Proofs.Signature.Choice
import Hallmark.Proofs.Signature.Description
import Hallmark.Proofs.Signature.Ranking
import Hallmark.Proofs.Text.Splitting

/-!
# `Hallmark/Proofs/Signature/Composition.lean` — database texts one after the other

Reading a text after another one does to the second what reading it alone does, further down: a directive
or an entry of it finds in the whole forest what it found in its own (`Draft.onto`), since both only look
at the right edge. So the forest of two texts is that of the first and then that of the second, on lines
that are moved (`readForest_append`).

Which line an entry stands on has no say in what it identifies. The signatures of a sequence of texts are
therefore those of its parts (`IsSequence.signaturesOf_flatten`), and what is true of the ranking of lists
is true of sequences of texts. Main statement: `readForest_composes`.
-/

set_option autoImplicit false

namespace Hallmark.Signature

open Forest

/-! ## Two texts -/

/-- The entry of a text that stands after so many lines of another one. -/
def Entry.moved (distance : Nat) (entry : Entry) : Entry := { entry with line := entry.line + distance }

theorem Directive.apply_moved (directive : Directive) (distance : Nat) (entry : Entry) :
    directive.apply (entry.moved distance) = (directive.apply entry).moved distance := by
  cases directive <;> rfl

/-- What has been read, after what was read of the lines before. -/
def Draft.onto (base : Draft) (distance : Nat) (draft : Draft) : Draft where
  forest := base.forest.append (draft.forest.map (Entry.moved distance))
  lastLevel := draft.lastLevel.or base.lastLevel

theorem Draft.onto_start (base : Draft) (distance : Nat) : base.onto distance {} = base := by
  simp [onto]

/-- A node that is grafted stays where it is when trees come to stand before it. -/
theorem Draft.onto_graft (base : Draft) (distance : Nat) {forest : Forest Entry} (entry : Entry)
    (h : entry.level ≤ forest.edge.length) :
    base.onto distance ⟨forest.graft entry.level (leaf entry), some entry.level⟩ =
      ⟨(base.forest.append (forest.map (Entry.moved distance))).graft entry.level
        (leaf (entry.moved distance)), some entry.level⟩ := by
  have hle : entry.level ≤ (forest.map (Entry.moved distance)).edge.length := by
    rwa [edge_map, List.length_map]
  rw [graft_append _ _ hle, onto, map_graft, map_leaf]
  rfl

theorem Draft.Step.onto {number : Nat} {raw : List Char} {draft next : Draft} (base : Draft)
    (distance : Nat) (hs : Draft.Step number raw draft next) :
    (base.onto distance draft).addLine (number + distance) raw = .ok (base.onto distance next) := by
  -- The edge is as long as that of the text alone, or longer.
  have hedge : ∀ {level : Nat} {forest : Forest Entry}, level ≤ forest.edge.length →
      level ≤ (base.forest.append (forest.map (Entry.moved distance))).edge.length := by
    intro level forest hle
    apply le_length_edge_append
    rwa [edge_map, List.length_map]
  cases hs with
  | silent draft he hd => exact Draft.addLine_silent _ _ he hd
  | directive forest last directive hle hd hr =>
    have hnext := base.onto_graft distance (directive.apply last) (by simpa using hle)
    rw [Directive.level_apply, ← Directive.apply_moved] at hnext
    rw [base.onto_graft distance last hle, hnext]
    have hline := @Draft.addLine_directive_last (number + distance) raw _ (last.moved distance) _
      (hedge hle) hd
    rw [(Directive.read_namesLine _).eq_ok hr (number + distance)] at hline
    exact hline
  | entry draft entry he hr hle =>
    have hmoved : Entry.read (number + distance) (Text.trimStart raw) = .ok (entry.moved distance) := by
      rw [Entry.read_numbered (number + distance) hr, Entry.moved, (Entry.fields_of_read hr).2.1]
      rfl
    rw [base.onto_graft distance entry hle]
    exact Draft.addLine_attached he hmoved (hedge hle)

/-- A text after an ended one is read as on its own. -/
theorem readForest_append {first second : List Char} {f g : Forest Entry}
    (h : Text.IsEnded first) (hf : readForest first = .ok f) (hg : readForest second = .ok g) :
    readForest (first ++ second) =
      .ok (f.append (g.map (Entry.moved (Text.lines first).length))) := by
  obtain ⟨base, hbase, rfl⟩ := map_eq_ok_iff.1 hf
  obtain ⟨draft, hdraft, rfl⟩ := map_eq_ok_iff.1 hg
  have hafter : (base.onto (Text.lines first).length {}).addLines (1 + (Text.lines first).length)
      ((Text.lines second).map id) = .ok (base.onto (Text.lines first).length draft) :=
    Draft.addLines_transport (fun hs => hs.onto base (Text.lines first).length) hdraft
  rw [Draft.onto_start, List.map_id] at hafter
  rw [readForest, Text.lines_append_of_isEnded h, Draft.addLines_append, hbase]
  simp [Except.bind, hafter, Except.map, Draft.onto]

/-! ## Line numbers -/

section Numbered

variable (buffer : List UInt8) (number : Nat)

theorem Entry.strength_numbered (entry : Entry) : (entry.numbered number).strength = entry.strength :=
  rfl

theorem Entry.keepsTest_numbered : KeepsTest (Entry.numbered number) where
  offset _ := rfl
  type _ := rfl
  test _ := rfl

theorem describe?_numbered (tree : Tree Entry) :
    describe? (tree.map (Entry.numbered number)) buffer = describe? tree buffer := by
  have hsays : ∀ entries : List (Entry × Match),
      Description.ofMatched (entries.map fun p => (p.1.numbered number, p.2)) =
        Description.ofMatched entries := by
    intro entries
    rw [Description.ofMatched, List.foldl_map]
    rfl
  rw [describe?_eq, (Entry.keepsTest_numbered number).matched?_map, Option.map_map, describe?_eq]
  congr 1
  funext entries
  exact hsays entries

theorem identifyBy?_numbered (tree : Tree Entry) :
    identifyBy? buffer (tree.map (Entry.numbered number)) = identifyBy? buffer tree := by
  rw [identifyBy?, describe?_numbered, identifyBy?]

end Numbered

/-- The signatures of a text, as if all their entries stood on one line; none if the text is refused. -/
def signaturesOf (text : List Char) : List (Tree Entry) :=
  match readForest text with
  | .ok forest => (forest.map (Entry.numbered 0)).trees
  | .error _ => []

theorem signaturesOf_eq {text : List Char} {forest : Forest Entry}
    (h : readForest text = .ok forest) :
    signaturesOf text = (forest.map (Entry.numbered 0)).trees := by
  rw [signaturesOf, h]

theorem identify_eq {text : List Char} {database : Database}
    (h : Database.read text = .ok database) (buffer : List UInt8) :
    database.identify buffer =
      ((rank (signaturesOf text)).findSome? (identifyBy? buffer)).getD (Content.classify buffer) := by
  obtain ⟨forest, hforest, rfl⟩ := map_eq_ok_iff.1 h
  have hstrength : ∀ t : Tree Entry, (t.map (Entry.numbered 0)).root.strength = t.root.strength :=
    fun _ => rfl
  rw [signaturesOf_eq hforest, trees_map, rank_map hstrength, List.findSome?_map]
  have hsame : identifyBy? buffer ∘ Tree.map (Entry.numbered 0) = identifyBy? buffer :=
    funext fun tree => identifyBy?_numbered buffer 0 tree
  rw [hsame, Database.identify]
  cases (rank forest.trees).findSome? (identifyBy? buffer) <;> rfl

theorem signaturesOf_append {first second : List Char} {f g : Forest Entry}
    (h : Text.IsEnded first) (hf : readForest first = .ok f) (hg : readForest second = .ok g) :
    signaturesOf (first ++ second) = signaturesOf first ++ signaturesOf second := by
  have hmoved : Entry.numbered 0 ∘ Entry.moved (Text.lines first).length = Entry.numbered 0 := rfl
  rw [signaturesOf_eq (readForest_append h hf hg), signaturesOf_eq hf, signaturesOf_eq hg,
    map_append, map_map, hmoved, trees_append]

/-! ## Sequences of texts -/

/-- Texts that can be read one after the other: each of them on its own, and all but the last are
ended. -/
structure IsSequence (texts : List (List Char)) : Prop where
  readable : ∀ text ∈ texts, ∃ forest, readForest text = .ok forest
  ended : ∀ text ∈ texts.dropLast, Text.IsEnded text

namespace IsSequence

variable {text : List Char} {texts : List (List Char)}

/-- Some texts of a sequence, in their order, are a sequence. -/
theorem sublist {others : List (List Char)} (h : IsSequence texts) (hs : others.Sublist texts) :
    IsSequence others where
  readable text hm := h.readable text (hs.subset hm)
  ended text hm := by
    have hfront := hs.reverse.tail
    rw [List.tail_reverse, List.tail_reverse, List.reverse_sublist] at hfront
    exact h.ended text (hfront.subset hm)

/-- A sequence of texts is read, and has the signatures of its parts. -/
theorem signaturesOf_flatten (h : IsSequence texts) :
    (∃ forest, readForest texts.flatten = .ok forest) ∧
      signaturesOf texts.flatten = texts.flatMap signaturesOf := by
  induction texts with
  | nil => exact ⟨⟨.empty, rfl⟩, rfl⟩
  | cons text texts ih =>
    obtain ⟨f, hf⟩ := h.readable text List.mem_cons_self
    cases texts with
    | nil => simpa using ⟨f, hf⟩
    | cons next rest =>
      obtain ⟨⟨g, hg⟩, hsignatures⟩ := ih (h.sublist (List.sublist_cons_self _ _))
      have hended : Text.IsEnded text := h.ended text List.mem_cons_self
      rw [List.flatten_cons, List.flatMap_cons, ← hsignatures]
      exact ⟨⟨_, readForest_append hended hf hg⟩, signaturesOf_append hended hf hg⟩

/-- A sequence of texts identifies a buffer as its signatures do. -/
theorem exists_read (h : IsSequence texts) :
    ∃ database, Database.read texts.flatten = .ok database ∧
      ∀ buffer, database.identify buffer =
        ((rank (texts.flatMap signaturesOf)).findSome? (identifyBy? buffer)).getD
          (Content.classify buffer) := by
  obtain ⟨⟨forest, hforest⟩, hsignatures⟩ := h.signaturesOf_flatten
  have hread : Database.read texts.flatten = .ok { signatures := rank forest.trees } := by
    rw [Database.read, hforest]
    rfl
  refine ⟨_, hread, fun buffer => ?_⟩
  rw [identify_eq hread, hsignatures]

end IsSequence

/-- **Database texts compose.** A text after an ended one is read as on its own, on lines that are moved.
In a sequence of texts, neighbours whose signatures have no strength in common can change places, and one
with no signature that describes a buffer can be left out for that buffer. -/
theorem readForest_composes :
    (∀ first second f g, Text.IsEnded first → readForest first = .ok f →
      readForest second = .ok g →
      readForest (first ++ second) =
        .ok (f.append (g.map (Entry.moved (Text.lines first).length)))) ∧
    (∀ before a b after f g, IsSequence (before ++ a :: b :: after) →
      IsSequence (before ++ b :: a :: after) → readForest a = .ok f → readForest b = .ok g →
      (∀ s ∈ f.trees, ∀ t ∈ g.trees, s.root.strength ≠ t.root.strength) →
      ∃ database swapped, Database.read (before ++ a :: b :: after).flatten = .ok database ∧
        Database.read (before ++ b :: a :: after).flatten = .ok swapped ∧
        ∀ buffer, swapped.identify buffer = database.identify buffer) ∧
    ∀ before a after f buffer, IsSequence (before ++ a :: after) → readForest a = .ok f →
      (∀ tree ∈ f.trees, ¬ Describes buffer tree) →
      ∃ database shorter, Database.read (before ++ a :: after).flatten = .ok database ∧
        Database.read (before ++ after).flatten = .ok shorter ∧
        shorter.identify buffer = database.identify buffer := by
  refine ⟨fun first second f g h hf hg => readForest_append h hf hg, ?_, ?_⟩
  · intro before a b after f g h hswapped hf hg hne
    obtain ⟨database, hdatabase, hidentify⟩ := h.exists_read
    obtain ⟨swapped, hread, hswap⟩ := hswapped.exists_read
    refine ⟨database, swapped, hdatabase, hread, fun buffer => ?_⟩
    have hstrengths : ∀ s ∈ signaturesOf a, ∀ t ∈ signaturesOf b, s.root.strength ≠ t.root.strength := by
      rw [signaturesOf_eq hf, signaturesOf_eq hg, trees_map, trees_map]
      simpa [Tree.map, Entry.strength_numbered] using hne
    rw [hidentify, hswap]
    simp only [List.flatMap_append, List.flatMap_cons, rank_swap _ _ hstrengths]
  · intro before a after f buffer h hf hnone
    obtain ⟨database, hdatabase, hidentify⟩ := h.exists_read
    have hsub : (before ++ after).Sublist (before ++ a :: after) :=
      (List.sublist_cons_self a after).append_left before
    obtain ⟨shorter, hshorter, hshort⟩ := (h.sublist hsub).exists_read
    refine ⟨database, shorter, hdatabase, hshorter, ?_⟩
    have hsilent : (signaturesOf a).filter (fun t => (identifyBy? buffer t).isSome) = [] := by
      rw [signaturesOf_eq hf, trees_map, List.filter_eq_nil_iff]
      intro tree hm
      obtain ⟨t, ht, rfl⟩ := List.mem_map.1 hm
      rw [identifyBy?_numbered, identifyBy?_eq_none_iff.2 (hnone t ht)]
      simp
    rw [hidentify, hshort, findSome?_rank_eq (identifyBy? buffer)]
    simp [List.filter_append, hsilent]

/-- Two signatures of strengths 50 and 60 change places, and one that says nothing is left out: the stronger
of the two still identifies a buffer that both of them match. -/
theorem readForest_composes_swapped :
    ∃ e f g database swapped shorter,
      readForest "0 byte x\n".toList = .ok e ∧
      readForest "0 string AB ab\n>2 byte x two\n".toList = .ok f ∧
      readForest "0 string ABC abc\n".toList = .ok g ∧
      e.trees.map (identifyBy? [0x41, 0x42, 0x43]) = [none] ∧
      f.trees.map (fun t => t.root.strength) = [50] ∧ g.trees.map (fun t => t.root.strength) = [60] ∧
      readForest ("0 string AB ab\n>2 byte x two\n".toList ++ "0 string ABC abc\n".toList) =
        .ok (f.append (g.map (Entry.moved 2))) ∧
      Database.read "0 byte x\n0 string AB ab\n>2 byte x two\n0 string ABC abc\n".toList =
        .ok database ∧
      Database.read "0 byte x\n0 string ABC abc\n0 string AB ab\n>2 byte x two\n".toList =
        .ok swapped ∧
      Database.read "0 string AB ab\n>2 byte x two\n0 string ABC abc\n".toList = .ok shorter ∧
      (∀ buffer, swapped.identify buffer = database.identify buffer) ∧
      database.identify [0x41, 0x42, 0x43] = ⟨"abc", none⟩ ∧
      shorter.identify [0x41, 0x42, 0x43] = database.identify [0x41, 0x42, 0x43] := by
  obtain ⟨e, he, hsilent⟩ := map_eq_ok_iff.1 (show (readForest "0 byte x\n".toList).map
    (fun e => e.trees.map (identifyBy? [0x41, 0x42, 0x43])) = .ok [none] by decide +kernel)
  obtain ⟨f, hf, hfs⟩ := map_eq_ok_iff.1 (show (readForest
    "0 string AB ab\n>2 byte x two\n".toList).map
      (fun f => f.trees.map fun t => t.root.strength) = .ok [50] by decide +kernel)
  obtain ⟨g, hg, hgs⟩ := map_eq_ok_iff.1 (show (readForest "0 string ABC abc\n".toList).map
    (fun g => g.trees.map fun t => t.root.strength) = .ok [60] by decide +kernel)
  have hseq : IsSequence ["0 byte x\n".toList, "0 string AB ab\n>2 byte x two\n".toList,
      "0 string ABC abc\n".toList] := by
    refine ⟨?_, by decide⟩
    simp only [List.forall_mem_cons]
    exact ⟨⟨e, he⟩, ⟨f, hf⟩, ⟨g, hg⟩, List.forall_mem_nil _⟩
  have hseq' : IsSequence ["0 byte x\n".toList, "0 string ABC abc\n".toList,
      "0 string AB ab\n>2 byte x two\n".toList] := by
    refine ⟨?_, by decide⟩
    simp only [List.forall_mem_cons]
    exact ⟨⟨e, he⟩, ⟨g, hg⟩, ⟨f, hf⟩, List.forall_mem_nil _⟩
  obtain ⟨happend, hswap, hremove⟩ := readForest_composes
  have hne : ∀ s ∈ f.trees, ∀ t ∈ g.trees, s.root.strength ≠ t.root.strength := by
    intro s hs t ht
    have hweak : s.root.strength ∈ [(50 : Int)] := hfs ▸ List.mem_map_of_mem hs
    have hstrong : t.root.strength ∈ [(60 : Int)] := hgs ▸ List.mem_map_of_mem ht
    rw [List.mem_singleton.1 hweak, List.mem_singleton.1 hstrong]
    decide
  have hnone : ∀ tree ∈ e.trees, ¬ Describes [0x41, 0x42, 0x43] tree := by
    intro tree hm
    have hnothing : identifyBy? [0x41, 0x42, 0x43] tree ∈ [(none : Option Identification)] :=
      hsilent ▸ List.mem_map_of_mem hm
    exact identifyBy?_eq_none_iff.1 (List.mem_singleton.1 hnothing)
  obtain ⟨database, swapped, hdatabase, hswapped, hall⟩ :=
    hswap ["0 byte x\n".toList] _ _ [] f g hseq hseq' hf hg hne
  obtain ⟨other, shorter, hother, hshorter, hsame⟩ := hremove [] _ _ e _ hseq he hnone
  obtain rfl : database = other := Except.ok.inj (hdatabase.symm.trans hother)
  obtain ⟨third, hthird, hidentified⟩ := map_eq_ok_iff.1 (show (Database.read
    "0 byte x\n0 string AB ab\n>2 byte x two\n0 string ABC abc\n".toList).map
      (fun d => d.identify [0x41, 0x42, 0x43]) = .ok ⟨"abc", none⟩ by decide +kernel)
  obtain rfl : database = third := Except.ok.inj (hdatabase.symm.trans hthird)
  exact ⟨e, f, g, database, swapped, shorter, he, hf, hg, hsilent, hfs, hgs,
    happend _ _ f g (by decide) hf hg, hdatabase, hswapped, hshorter, hall, hidentified, hsame⟩

end Hallmark.Signature
