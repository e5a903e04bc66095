import Mathlib.Algebra.Ring.Nat
import Mathlib.Data.List.Find
import Hallmark.Proofs.Signature.Reading

/-!
# `Hallmark/Proofs/Signature/Outline.lean` — the outline of a database text

The entry lines of a text (`entryLines`) and the levels they start with determine the forest that is
read from it. Its pre-order has one entry for each entry line, each entry stands as deep as its level
says, and its parent is therefore the closest entry before it that is one level higher. An entry line
can have no place in the forest only by standing too deep below the one right before it (`IsOrphan`),
and the first such line is the one that is refused.

The invariant is `Draft.Outlines`. Main statement: `readForest_outline`.
-/

set_option autoImplicit false

namespace Hallmark.Signature

open Forest

/-! ## Entry lines -/

/-- An entry line of a text: its number, counted from 1, and the line without the blanks in front. -/
structure EntryLine where
  number : Nat
  text : List Char
deriving DecidableEq, Repr

def EntryLine.level (line : EntryLine) : Nat := (line.text.takeWhile (· == '>')).length

/-- The entry lines among the lines of a text. -/
def entryLines (lines : List (List Char)) : List EntryLine :=
  (lines.zipIdx 1).filterMap fun p =>
    if isEntryLine p.1 then some ⟨p.2, Text.trimStart p.1⟩ else none

theorem entryLines_concat (lines : List (List Char)) (raw : List Char) :
    entryLines (lines ++ [raw]) =
      entryLines lines ++
        if isEntryLine raw then [⟨lines.length + 1, Text.trimStart raw⟩] else [] := by
  simp only [entryLines, List.zipIdx_append, List.filterMap_append, List.zipIdx_singleton]
  cases h : isEntryLine raw <;> simp [h, Nat.add_comm]

/-- The entry line at a place has no parent: it stands below the top level, and either no entry line
comes before it or it exceeds the level of the one right before it by more than one. -/
def IsOrphan (lines : List EntryLine) (place : Nat) : Prop :=
  ∃ line, lines[place]? = some line ∧ 1 ≤ line.level ∧
    (place = 0 ∨ ∃ previous, lines[place - 1]? = some previous ∧ previous.level + 1 < line.level)

theorem entryLines_prefix (before after : List (List Char)) :
    entryLines before <+: entryLines (before ++ after) := by
  simp only [entryLines, List.zipIdx_append, List.filterMap_append]
  exact List.prefix_append _ _

theorem isOrphan_append_iff {lines : List EntryLine} (more : List EntryLine) {place : Nat}
    (h : place < lines.length) : IsOrphan (lines ++ more) place ↔ IsOrphan lines place := by
  have hprevious : (lines ++ more)[place - 1]? = lines[place - 1]? :=
    List.getElem?_append_left (Nat.lt_of_le_of_lt (Nat.sub_le _ _) h)
  simp [IsOrphan, List.getElem?_append_left h, hprevious]

/-- How deep the entry line after some others can stand. -/
def reachAfter (lines : List EntryLine) : Nat := (lines.getLast?.map EntryLine.level).elim 0 (· + 1)

/-- One more line changes nothing about the lines before, and is an orphan if it is out of reach. -/
theorem isOrphan_concat_iff (lines : List EntryLine) (line : EntryLine) (place : Nat) :
    IsOrphan (lines ++ [line]) place ↔
      IsOrphan lines place ∨ place = lines.length ∧ reachAfter lines < line.level := by
  rcases Nat.lt_trichotomy place lines.length with h | rfl | h
  · simp [isOrphan_append_iff [line] h, Nat.ne_of_lt h]
  · have hnone : ¬ IsOrphan lines lines.length := by
      rintro ⟨line, hl, -⟩
      simp at hl
    cases lines.eq_nil_or_concat with
    | inl hnil =>
      subst hnil
      simp only [hnone, false_or, true_and]
      simp [IsOrphan, reachAfter]
      omega
    | inr hcons =>
      obtain ⟨before, previous, rfl⟩ := hcons
      simp only [hnone, false_or, true_and]
      simp [IsOrphan, reachAfter]
      omega
  · have hnone : ∀ ls : List EntryLine, ls.length ≤ place → ¬ IsOrphan ls place := by
      rintro ls hle ⟨line, hl, -⟩
      simp [List.getElem?_eq_none hle] at hl
    have h₁ := hnone lines (Nat.le_of_lt h)
    have h₂ := hnone (lines ++ [line]) (by simp only [List.length_append, List.length_singleton]; omega)
    simp [h₁, h₂, Nat.ne_of_gt h]

/-! ## The invariant -/

/-- The forest read from some lines has the outline that their entry lines give. -/
structure Draft.Outlines (seen : List (List Char)) (draft : Draft) : Prop where
  /-- Each entry stands as deep as its level says. -/
  placed : ∀ p ∈ draft.forest.lineage [], p.2.level = p.1.length
  /-- The pre-order has the entry of each entry line. -/
  listed : draft.forest.preorder.map (fun entry => Except.ok entry.bare) =
    (entryLines seen).map fun line => Entry.read line.number line.text
  last : draft.reach = reachAfter (entryLines seen)
  noOrphan : ∀ place, ¬ IsOrphan (entryLines seen) place

theorem Draft.Outlines.start : Draft.Outlines [] {} where
  placed := by simp
  listed := rfl
  last := rfl
  noOrphan := by
    rintro place ⟨line, hl, -⟩
    simp [entryLines] at hl

theorem preorder_graft_leaf {level : Nat} {forest : Forest Entry} (entry : Entry)
    (h : level ≤ forest.edge.length) :
    (forest.graft level (leaf entry)).preorder = forest.preorder ++ [entry] := by
  rw [← map_snd_lineage [], lineage_graft _ _ h, List.map_append, map_snd_lineage]
  rfl

/-- A grafted leaf stands as deep as its level says, and nothing else is moved. -/
theorem placed_graft_leaf_iff {forest : Forest Entry} {entry : Entry}
    (h : entry.level ≤ forest.edge.length) :
    (∀ p ∈ (forest.graft entry.level (leaf entry)).lineage [], p.2.level = p.1.length) ↔
      ∀ p ∈ forest.lineage [], p.2.level = p.1.length := by
  rw [lineage_graft _ _ h]
  simp only [leaf, lineage, List.append_nil, List.mem_append, List.mem_singleton]
  constructor
  · intro hall p hp
    exact hall p (.inl hp)
  · rintro hall p (hp | rfl)
    · exact hall p hp
    · simp [Nat.min_eq_left h]

theorem Draft.Outlines.keep {seen : List (List Char)} {draft next : Draft} {raw : List Char}
    (h : draft.Outlines seen) (hs : Draft.Step (seen.length + 1) raw draft next) :
    next.Outlines (seen ++ [raw]) := by
  cases hs with
  | silent draft he hd =>
    have hlines : entryLines (seen ++ [raw]) = entryLines seen := by simp [entryLines_concat, he]
    exact ⟨h.placed, hlines ▸ h.listed, hlines ▸ h.last, hlines ▸ h.noOrphan⟩
  | directive forest last directive hle hd hr =>
    have hlines : entryLines (seen ++ [raw]) = entryLines seen := by
      simp [entryLines_concat, isEntryLine_of_directive hd]
    refine ⟨?_, ?_, hlines ▸ h.last, hlines ▸ h.noOrphan⟩
    · have hplaced := (placed_graft_leaf_iff hle).1 h.placed
      have hlevel : (directive.apply last).level = last.level := directive.level_apply last
      rw [← hlevel] at hle ⊢
      exact (placed_graft_leaf_iff hle).2 hplaced
    · have hlisted := h.listed
      rw [preorder_graft_leaf _ hle, List.map_append] at hlisted ⊢
      simpa [hlines] using hlisted
  | entry draft entry he hr hle hreach =>
    have hlines : entryLines (seen ++ [raw]) =
        entryLines seen ++ [⟨seen.length + 1, Text.trimStart raw⟩] := by
      simp [entryLines_concat, he]
    obtain ⟨hlevel, -, hmime, hadjustment⟩ := Entry.fields_of_read hr
    refine ⟨(placed_graft_leaf_iff hle).2 h.placed, ?_, ?_, ?_⟩
    · have hbare : entry.bare = entry := by
        cases entry
        simp_all [Entry.bare]
      rw [preorder_graft_leaf _ hle, List.map_append, h.listed, hlines, List.map_append]
      simp [hr, hbare]
    · simp [hlines, Draft.reach, reachAfter, EntryLine.level, hlevel]
    · intro place horphan
      rw [hlines, isOrphan_concat_iff] at horphan
      rcases horphan with horphan | ⟨-, hout⟩
      · exact h.noOrphan place horphan
      · rw [← h.last] at hout
        simp only [EntryLine.level, ← hlevel] at hout
        omega

theorem Draft.outlines_of_addLines {lines : List (List Char)} {draft : Draft}
    (h : Draft.addLines {} 1 lines = .ok draft) : draft.Outlines lines :=
  addLines_invariant .start (fun _ _ _ _ hp _ hs => hp.keep hs) h

/-- Every entry was read from its entry line, apart from what directives said about it. -/
theorem Draft.Outlines.exists_line {seen : List (List Char)} {draft : Draft} {entry : Entry}
    (h : draft.Outlines seen) (hm : entry ∈ draft.forest.preorder) :
    ∃ line ∈ entryLines seen, line.number = entry.line ∧
      Entry.read line.number line.text = .ok entry.bare := by
  have hlisted : Except.ok entry.bare ∈
      (entryLines seen).map fun line => Entry.read line.number line.text :=
    h.listed ▸ List.mem_map_of_mem hm
  obtain ⟨line, hline, hr⟩ := List.mem_map.1 hlisted
  exact ⟨line, hline, (Entry.fields_of_read hr).2.1.symm, hr⟩

/-! ## Lines without a parent -/

/-- Nothing but a missing parent can be wrong with a text: each entry line and each directive can be
read, and no directive comes before the first entry line. -/
structure IsReadable (lines : List (List Char)) : Prop where
  entries : ∀ line ∈ entryLines lines, ∃ entry, Entry.read line.number line.text = .ok entry
  directives : ∀ before raw after, lines = before ++ raw :: after → ∀ text,
    directiveOf? raw = some text →
      ∃ directive, Directive.read (before.length + 1) text = .ok directive
  led : ∀ before raw after, lines = before ++ raw :: after → (directiveOf? raw).isSome →
    entryLines before ≠ []

/-- A line of a readable text is refused only if it is an entry line out of reach of the lines before. -/
theorem Draft.Outlines.out_of_reach {seen : List (List Char)} {draft : Draft} {raw : List Char}
    {error : DatabaseError} (ho : draft.Outlines seen) (hg : draft.Grown)
    (hentry : isEntryLine raw = true →
      ∃ entry, Entry.read (seen.length + 1) (Text.trimStart raw) = .ok entry)
    (hdirective : ∀ text, directiveOf? raw = some text →
      (∃ directive, Directive.read (seen.length + 1) text = .ok directive) ∧ entryLines seen ≠ [])
    (h : draft.addLine (seen.length + 1) raw = .error error) :
    isEntryLine raw = true ∧ ∃ line : EntryLine, line = ⟨seen.length + 1, Text.trimStart raw⟩ ∧
      reachAfter (entryLines seen) < line.level ∧
      error = .line line.number (.noParent line.level) := by
  cases hd : directiveOf? raw with
  | some text =>
    -- Some entry line comes before, so there is a last entry that the directive is about.
    obtain ⟨⟨directive, hr⟩, hled⟩ := hdirective text hd
    cases hg with
    | start =>
      have hlast : 0 = reachAfter (entryLines seen) := ho.last
      obtain ⟨others, line, hlines⟩ := (entryLines seen).eq_nil_or_concat.resolve_left hled
      simp [hlines, reachAfter] at hlast
    | entry forest last hle =>
      rw [Draft.addLine_directive_last hle hd, hr] at h
      simp [Except.map] at h
  | none =>
    cases he : isEntryLine raw with
    | false =>
      rw [Draft.addLine_silent draft _ he hd] at h
      simp at h
    | true =>
      obtain ⟨entry, hr⟩ := hentry he
      have hlevel := (Entry.fields_of_read hr).1
      rw [hg.addLine_entry he hr] at h
      split at h
      · simp at h
      · next hout =>
        refine ⟨rfl, _, rfl, ?_, ?_⟩
        · rw [← ho.last, EntryLine.level, ← hlevel]
          exact Nat.lt_of_not_le hout
        · rw [EntryLine.level, ← hlevel]
          simpa using h.symm

/-- A readable text is refused at its first orphan. -/
theorem exists_orphan_of_addLines {lines : List (List Char)} {error : DatabaseError}
    (hr : IsReadable lines) (h : Draft.addLines {} 1 lines = .error error) :
    ∃ place line, (entryLines lines)[place]? = some line ∧ IsOrphan (entryLines lines) place ∧
      (∀ earlier < place, ¬ IsOrphan (entryLines lines) earlier) ∧
      error = .line line.number (.noParent line.level) := by
  obtain ⟨before, raw, after, middle, rfl, hbefore, hraw⟩ := Draft.addLines_eq_error_iff.1 h
  have ho := Draft.outlines_of_addLines hbefore
  have hsplit : before ++ raw :: after = (before ++ [raw]) ++ after := by simp
  obtain ⟨more, hmore⟩ := entryLines_prefix (before ++ [raw]) after
  rw [← hsplit] at hmore
  have hentry : isEntryLine raw = true →
      ∃ entry, Entry.read (before.length + 1) (Text.trimStart raw) = .ok entry := by
    intro he
    apply hr.entries ⟨before.length + 1, Text.trimStart raw⟩
    simp [← hmore, entryLines_concat, he]
  have hdirective : ∀ text, directiveOf? raw = some text →
      (∃ directive, Directive.read (before.length + 1) text = .ok directive) ∧
        entryLines before ≠ [] := by
    intro text hd
    exact ⟨hr.directives before raw after rfl text hd, hr.led before raw after rfl (by simp [hd])⟩
  rw [Nat.add_comm 1] at hraw
  obtain ⟨he, line, hline, hout, rfl⟩ :=
    ho.out_of_reach (Draft.grown_of_addLines hbefore) hentry hdirective hraw
  have hlines : entryLines (before ++ raw :: after) = entryLines before ++ [line] ++ more := by
    simp [← hmore, entryLines_concat, he, hline]
  refine ⟨(entryLines before).length, line, by simp [hlines], ?_, ?_, rfl⟩
  · rw [hlines, isOrphan_append_iff more (by simp), isOrphan_concat_iff]
    exact .inr ⟨rfl, hout⟩
  · intro earlier hlt horphan
    rw [hlines, List.append_assoc, isOrphan_append_iff _ hlt] at horphan
    exact ho.noOrphan earlier horphan

/-! ## The whole outline -/

theorem sum_size_trees {α : Type} (f : Forest α) : (f.trees.map Tree.size).sum = f.size := by
  induction f with
  | empty => rfl
  | grow root below after _ iha => simp [Forest.trees, Forest.size, Tree.size, iha]

theorem map_line_of_listed {entries : List Entry} {lines : List EntryLine}
    (h : entries.map (fun entry => Except.ok entry.bare) =
      lines.map fun line => Entry.read line.number line.text) :
    entries.map Entry.line = lines.map EntryLine.number := by
  induction entries generalizing lines with
  | nil =>
    cases lines with
    | nil => rfl
    | cons => simp at h
  | cons entry entries ih =>
    cases lines with
    | nil => simp at h
    | cons line lines =>
      simp only [List.map_cons, List.cons.injEq] at h ⊢
      have hline : entry.bare.line = line.number := (Entry.fields_of_read h.1.symm).2.1
      exact ⟨hline, ih h.2⟩

/-- Where levels are depths, the parent of an entry is the closest entry before that is one level
higher. -/
theorem parent_of_placed {forest : Forest Entry}
    (hplaced : ∀ p ∈ forest.lineage [], p.2.level = p.1.length)
    {before after : List (List Entry × Entry)} {chain : List Entry} {entry : Entry}
    (h : forest.lineage [] = before ++ (chain, entry) :: after) (hlevel : 1 ≤ entry.level) :
    ∃ parent, chain.head? = some parent ∧
      (before.map Prod.snd).reverse.find? (fun e => e.level + 1 = entry.level) = some parent := by
  have hdepth : entry.level = chain.length := hplaced (chain, entry) (by simp [h])
  obtain ⟨parent, rest, hchain, hfind⟩ := find?_reverse_lineage h (by rw [← hdepth]; exact hlevel)
  refine ⟨parent, by simp [hchain], ?_⟩
  have hsame : ∀ p ∈ before.reverse,
      ((fun e : Entry => decide (e.level + 1 = entry.level)) ∘ Prod.snd) p =
        decide (p.1.length + 1 = chain.length) := by
    intro p hp
    have := hplaced p (by rw [h]; exact List.mem_append_left _ (List.mem_reverse.1 hp))
    simp [this, hdepth]
  rw [← List.map_reverse, List.find?_map, List.find?_congr hsame, hfind]
  rfl

/-- **The entry lines of a text and their levels determine the forest that is read from it.** -/
theorem readForest_outline (text : List Char) :
    (∀ forest, readForest text = .ok forest →
      -- One entry for each entry line, in the order of the text.
      forest.preorder.map Entry.line = (entryLines (Text.lines text)).map EntryLine.number ∧
      forest.preorder.map (fun entry => Except.ok entry.bare) =
        (entryLines (Text.lines text)).map (fun line => Entry.read line.number line.text) ∧
      -- Levels are depths, and the parent is the closest entry before that is one level higher.
      (∀ p ∈ forest.lineage [], p.2.level = p.1.length) ∧
      (∀ before chain entry after, forest.lineage [] = before ++ (chain, entry) :: after →
        1 ≤ entry.level → ∃ parent, chain.head? = some parent ∧
          (before.map Prod.snd).reverse.find? (fun e => e.level + 1 = entry.level) = some parent) ∧
      (forest.trees.map Tree.size).sum = (entryLines (Text.lines text)).length) ∧
    -- If nothing else is wrong, the first orphan is what is refused.
    (IsReadable (Text.lines text) → ∀ error, readForest text = .error error ↔
      ∃ place line, (entryLines (Text.lines text))[place]? = some line ∧
        IsOrphan (entryLines (Text.lines text)) place ∧
        (∀ earlier < place, ¬ IsOrphan (entryLines (Text.lines text)) earlier) ∧
        error = .line line.number (.noParent line.level) ∧
        error.message = "line " ++ Number.decimalText line.number ++ ": " ++
          ("level " ++ Number.decimalText line.level ++ " entry has no parent")) := by
  constructor
  · intro forest h
    obtain ⟨draft, hdraft, rfl⟩ := map_eq_ok_iff.1 h
    have ho := Draft.outlines_of_addLines hdraft
    refine ⟨map_line_of_listed ho.listed, ho.listed, ho.placed, ?_, ?_⟩
    · intro before chain entry after hsplit hlevel
      exact parent_of_placed ho.placed hsplit hlevel
    · have hlength := congrArg List.length ho.listed
      simp only [List.length_map] at hlength
      rw [sum_size_trees, size_eq_length_preorder, hlength]
  · intro hr error
    constructor
    · intro h
      obtain ⟨place, line, hat, horphan, hfirst, rfl⟩ :=
        exists_orphan_of_addLines hr (map_eq_error_iff.1 h)
      exact ⟨place, line, hat, horphan, hfirst, rfl, rfl⟩
    · rintro ⟨place, line, hat, horphan, hfirst, rfl, -⟩
      cases h : Draft.addLines {} 1 (Text.lines text) with
      | ok draft => exact absurd horphan ((Draft.outlines_of_addLines h).noOrphan place)
      | error error =>
        -- Two first orphans are the same line.
        obtain ⟨place', line', hat', horphan', hfirst', rfl⟩ := exists_orphan_of_addLines hr h
        obtain rfl : place' = place := by
          rcases Nat.lt_trichotomy place' place with hlt | heq | hlt
          · exact absurd horphan' (hfirst place' hlt)
          · exact heq
          · exact absurd horphan (hfirst' place hlt)
        obtain rfl : line' = line := Option.some.inj (hat'.symm.trans hat)
        exact map_eq_error_iff.2 h

/-- A directive and a blank line between entries, and then an entry two levels too deep. -/
theorem readForest_outline_levels :
    (∃ forest, readForest "0 byte 1 a\n!:mime b/c\n>1 byte 2 d\n\n>2 byte 3 e\n".toList = .ok forest ∧
      forest.preorder.map Entry.line = [1, 3, 5] ∧ (forest.trees.map Tree.size).sum = 3) ∧
    IsReadable (Text.lines "0 byte 1 a\n\n>>1 byte 2 b\n".toList) ∧
    readForest "0 byte 1 a\n\n>>1 byte 2 b\n".toList = .error (.line 3 (.noParent 2)) := by
  obtain ⟨forest, hforest⟩ : ∃ forest,
      readForest "0 byte 1 a\n!:mime b/c\n>1 byte 2 d\n\n>2 byte 3 e\n".toList = .ok forest := ⟨_, rfl⟩
  obtain ⟨hlines, -, -, -, hsize⟩ := (readForest_outline _).1 forest hforest
  have hentries : entryLines (Text.lines "0 byte 1 a\n\n>>1 byte 2 b\n".toList) =
      [⟨1, "0 byte 1 a".toList⟩, ⟨3, ">>1 byte 2 b".toList⟩] := by decide +kernel
  have hdirective : ∀ raw ∈ Text.lines "0 byte 1 a\n\n>>1 byte 2 b\n".toList,
      directiveOf? raw = none := by decide +kernel
  have hread : IsReadable (Text.lines "0 byte 1 a\n\n>>1 byte 2 b\n".toList) := by
    refine ⟨?_, ?_, ?_⟩
    · intro line hl
      rw [hentries] at hl
      simp only [List.mem_cons, List.not_mem_nil, or_false] at hl
      rcases hl with rfl | rfl
      · exact ⟨_, rfl⟩
      · exact ⟨_, rfl⟩
    · intro before raw after hsplit text hd
      rw [hdirective raw (hsplit ▸ List.mem_append_right _ List.mem_cons_self)] at hd
      exact absurd hd (by simp)
    · intro before raw after hsplit hd
      rw [hdirective raw (hsplit ▸ List.mem_append_right _ List.mem_cons_self)] at hd
      exact absurd hd (by simp)
  refine ⟨⟨forest, hforest, ?_, ?_⟩, hread, ?_⟩
  · rw [hlines]
    decide +kernel
  · rw [hsize]
    decide +kernel
  · apply ((readForest_outline _).2 hread _).2
    refine ⟨1, ⟨3, ">>1 byte 2 b".toList⟩, by rw [hentries]; rfl, ?_, ?_, rfl, rfl⟩
    · rw [hentries]
      exact ⟨_, rfl, by decide +kernel, .inr ⟨_, rfl, by decide +kernel⟩⟩
    · intro earlier hlt
      obtain rfl : earlier = 0 := by omega
      rw [hentries]
      rintro ⟨line, hl, hlevel, -⟩
      obtain rfl := Option.some.inj hl
      exact absurd hlevel (by decide +kernel)

end Hallmark.Signature
