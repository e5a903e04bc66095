import Mathlib.Data.List.Infix
import Mathlib.Data.List.TakeWhile
import Hallmark.Proofs.Forest.Mapping
import Hallmark.Proofs.Signature.Outline

/-!
# `Hallmark/Proofs/Signature/Annotation.lean` — what directives say about entries

A directive line is about the entry line before it that is closest, whatever the levels of the entries
are: the entry found on the right edge is the one that was read last. Of the directives up to the next
entry line (`remarks`), the last of each name gives the MIME type and the adjustment of the entry
(`Entry.Follows`), and directives change nothing else: a text with its directive lines left blank has
the same forest, without MIME types and adjustments.

The invariant is `IsAnnotated`. Main statement: `readForest_annotated`.
-/

set_option autoImplicit false

namespace Hallmark.Signature

open Forest

/-! ## Directives by name -/

/-- The trimmed argument of a directive, if it has the name: the name is all of it, or a blank follows. -/
def argumentOf? (name : String) (directive : List Char) : Option (List Char) :=
  match Text.stripStart? name.toList directive with
  | some rest => if rest.head?.all Text.isBlank then some (Text.trim rest) else none
  | none => none

/-- Cutting a directive at its first blank finds a name that has no blank. -/
theorem argumentOf?_eq {name : String} (hn : name.toList.all (!Text.isBlank ·) = true)
    (directive : List Char) :
    argumentOf? name directive =
      if (Directive.parts directive).1 = name.toList then some (Directive.parts directive).2
      else none := by
  have hname := List.all_eq_true.1 hn
  unfold argumentOf?
  cases h : Text.stripStart? name.toList directive with
  | some rest =>
    obtain rfl := Text.stripStart?_eq_some_iff.1 h
    simp only [Directive.parts, List.takeWhile_append_of_pos hname,
      List.dropWhile_append_of_pos hname]
    cases rest with
    | nil => simp
    | cons c cs => cases hc : Text.isBlank c <;> simp [hc]
  | none =>
    have hne : (Directive.parts directive).1 ≠ name.toList := by
      intro hparts
      have hsplit : directive = name.toList ++ directive.dropWhile (!Text.isBlank ·) := by
        rw [← hparts]
        exact List.takeWhile_append_dropWhile.symm
      rw [Text.stripStart?_eq_some_iff.2 hsplit] at h
      exact absurd h (by simp)
    rw [if_neg hne]

/-- The argument of the last directive that has the name. -/
def lastArgument (name : String) (directives : List (List Char)) : Option (List Char) :=
  (directives.filterMap (argumentOf? name)).getLast?

theorem lastArgument_concat (name : String) (directives : List (List Char)) (directive : List Char) :
    lastArgument name (directives ++ [directive]) =
      (argumentOf? name directive).or (lastArgument name directives) := by
  rw [lastArgument, List.filterMap_append, List.getLast?_append]
  cases h : argumentOf? name directive <;> simp [h, lastArgument]

/-- The entry says what some directives say: the last of each name counts. -/
structure Entry.Follows (entry : Entry) (directives : List (List Char)) : Prop where
  mime : entry.mime = (lastArgument "mime" directives).map String.ofList
  adjustment : ∀ number, entry.adjustment.map Except.ok =
    (lastArgument "strength" directives).map (Adjustment.read number)

/-- What a directive says, by its name: one case for each name that is reported, and one for all others. -/
inductive Directive.Says (text : List Char) : Directive → Prop where
  | mime {argument : List Char} (named : argumentOf? "mime" text = some argument)
      (other : argumentOf? "strength" text = none) (nonempty : argument ≠ []) :
      Says text (.mime (String.ofList argument))
  | strength {argument : List Char} {adjustment : Adjustment}
      (named : argumentOf? "strength" text = some argument)
      (other : argumentOf? "mime" text = none)
      (hr : ∀ number, Adjustment.read number argument = .ok adjustment) : Says text (.strength adjustment)
  | unreported (notMime : argumentOf? "mime" text = none)
      (notStrength : argumentOf? "strength" text = none) : Says text .unreported

theorem Directive.says_of_read {number : Nat} {text : List Char} {directive : Directive}
    (h : Directive.read number text = .ok directive) : directive.Says text := by
  have hmime := argumentOf?_eq (by decide : "mime".toList.all (!Text.isBlank ·) = true) text
  have hstrength := argumentOf?_eq (by decide : "strength".toList.all (!Text.isBlank ·) = true) text
  have hnames : "mime".toList ≠ "strength".toList := by decide
  unfold Directive.read at h
  cases hparts : Directive.parts text with
  | mk name argument =>
    simp only [hparts] at h hmime hstrength
    split at h
    · next hname =>
      obtain rfl : name = "mime".toList := by simp [← hname]
      rw [if_pos rfl] at hmime
      rw [if_neg hnames] at hstrength
      split at h
      · simp at h
      · next hempty =>
        cases h
        exact .mime hmime hstrength (by simpa using hempty)
    · next hname =>
      obtain rfl : name = "strength".toList := by simp [← hname]
      rw [if_neg hnames.symm] at hmime
      rw [if_pos rfl] at hstrength
      obtain ⟨adjustment, hr, rfl⟩ := map_eq_ok_iff.1 h
      exact .strength hstrength hmime fun other => (Adjustment.read_namesLine argument).eq_ok hr other
    · next hnotMime hnotStrength =>
      cases h
      rw [if_neg (fun e => hnotMime (by simp [e]))] at hmime
      rw [if_neg (fun e => hnotStrength (by simp [e]))] at hstrength
      exact .unreported hmime hstrength

/-- One more directive changes what it says, and keeps the rest of what was said. -/
theorem Entry.Follows.apply {entry : Entry} {directives : List (List Char)} {text : List Char}
    {directive : Directive} (h : entry.Follows directives) (hs : directive.Says text) :
    (directive.apply entry).Follows (directives ++ [text]) := by
  cases hs with
  | mime named other =>
    exact ⟨by simp [lastArgument_concat, named, Directive.apply],
      by simpa [lastArgument_concat, other, Directive.apply] using h.adjustment⟩
  | strength named other hr =>
    exact ⟨by simpa [lastArgument_concat, other, Directive.apply] using h.mime,
      fun number => by simp [lastArgument_concat, named, Directive.apply, hr number]⟩
  | unreported notMime notStrength =>
    exact ⟨by simpa [lastArgument_concat, notMime, Directive.apply] using h.mime,
      by simpa [lastArgument_concat, notStrength, Directive.apply] using h.adjustment⟩

/-! ## Directives by place -/

/-- What the directive lines after a line say, up to the next entry line. -/
def remarks (lines : List (List Char)) (number : Nat) : List (List Char) :=
  ((lines.drop number).takeWhile (!isEntryLine ·)).filterMap directiveOf?

/-- No entry line comes after a line. -/
def IsOpen (lines : List (List Char)) (number : Nat) : Prop :=
  ∀ raw ∈ lines.drop number, isEntryLine raw = false

section Concat

variable {seen : List (List Char)} {raw : List Char} {number : Nat}

theorem isOpen_concat_iff (hn : number ≤ seen.length) :
    IsOpen (seen ++ [raw]) number ↔ IsOpen seen number ∧ isEntryLine raw = false := by
  simp only [IsOpen, List.drop_append_of_le_length hn, List.mem_append, List.mem_singleton]
  exact ⟨fun h => ⟨fun line hl => h line (.inl hl), h raw (.inr rfl)⟩,
    fun h line hl => hl.elim (h.1 line) fun e => e ▸ h.2⟩

theorem remarks_concat_of_isOpen (hn : number ≤ seen.length) (ho : IsOpen seen number) :
    remarks (seen ++ [raw]) number = remarks seen number ++ (directiveOf? raw).toList := by
  have hpass : ∀ line ∈ seen.drop number, (!isEntryLine line) = true := by
    simpa [IsOpen] using ho
  rw [remarks, remarks, List.drop_append_of_le_length hn, List.takeWhile_append_of_pos hpass,
    List.takeWhile_eq_self_iff.2 hpass, List.filterMap_append]
  cases hd : directiveOf? raw with
  | none => cases he : isEntryLine raw <;> simp [he, hd]
  | some text => simp [isEntryLine_of_directive hd, hd]

theorem remarks_concat_of_not_isOpen (hn : number ≤ seen.length) (ho : ¬ IsOpen seen number) :
    remarks (seen ++ [raw]) number = remarks seen number := by
  -- The entry line that closes the section comes before `raw`.
  have hstop : ((seen.drop number).takeWhile (!isEntryLine ·)).length ≠ (seen.drop number).length := by
    intro hlength
    have hall := (List.takeWhile_prefix (!isEntryLine ·)).eq_of_length hlength
    exact ho (by simpa [IsOpen] using List.takeWhile_eq_self_iff.1 hall)
  rw [remarks, remarks, List.drop_append_of_le_length hn, List.takeWhile_append, if_neg hstop]

theorem remarks_concat_of_none (hn : number ≤ seen.length) (hd : directiveOf? raw = none) :
    remarks (seen ++ [raw]) number = remarks seen number := by
  by_cases ho : IsOpen seen number
  · simp [remarks_concat_of_isOpen hn ho, hd]
  · exact remarks_concat_of_not_isOpen hn ho

theorem remarks_length (lines : List (List Char)) : remarks lines lines.length = [] := by
  simp [remarks]

end Concat

/-! ## The invariant -/

@[simp] theorem Directive.line_apply (directive : Directive) (entry : Entry) :
    (directive.apply entry).line = entry.line := by
  cases directive <;> rfl

/-- Every entry says what the directives of its section say, and the last entry has the only section
that is still open. -/
structure IsAnnotated (seen : List (List Char)) (entries : List Entry) : Prop where
  within : ∀ entry ∈ entries, entry.line ≤ seen.length
  follows : ∀ entry ∈ entries, entry.Follows (remarks seen entry.line)
  closed : ∀ entry ∈ entries.dropLast, ¬ IsOpen seen entry.line
  current : ∀ entry ∈ entries.getLast?, IsOpen seen entry.line

namespace IsAnnotated

variable {seen : List (List Char)} {raw : List Char} {entries : List Entry}

theorem start : IsAnnotated [] [] := ⟨by simp, by simp, by simp, by simp⟩

theorem silent (h : IsAnnotated seen entries) (he : isEntryLine raw = false)
    (hd : directiveOf? raw = none) : IsAnnotated (seen ++ [raw]) entries where
  within entry hm := by
    rw [List.length_append]
    exact Nat.le_add_right_of_le (h.within entry hm)
  follows entry hm := by
    rw [remarks_concat_of_none (h.within entry hm) hd]
    exact h.follows entry hm
  closed entry hm ho := by
    have hn := h.within entry (List.mem_of_mem_dropLast hm)
    exact h.closed entry hm ((isOpen_concat_iff hn).1 ho).1
  current entry hm := by
    have hn := h.within entry (List.mem_of_getLast? hm)
    exact (isOpen_concat_iff hn).2 ⟨h.current entry hm, he⟩

/-- All but the last entry have closed sections. -/
theorem concat_iff {last : Entry} :
    IsAnnotated seen (entries ++ [last]) ↔
      (∀ entry ∈ entries, entry.line ≤ seen.length ∧ entry.Follows (remarks seen entry.line) ∧
        ¬ IsOpen seen entry.line) ∧
      last.line ≤ seen.length ∧ last.Follows (remarks seen last.line) ∧ IsOpen seen last.line := by
  constructor
  · intro h
    refine ⟨?_, h.within last (by simp), h.follows last (by simp), h.current last (by simp)⟩
    intro entry hm
    have hmem : entry ∈ entries ++ [last] := List.mem_append_left _ hm
    exact ⟨h.within entry hmem, h.follows entry hmem, h.closed entry (by simpa using hm)⟩
  · rintro ⟨hentries, hwithin, hfollows, hopen⟩
    refine ⟨?_, ?_, ?_, ?_⟩
    · exact List.forall_mem_append.2
        ⟨fun entry hm => (hentries entry hm).1, List.forall_mem_singleton.2 hwithin⟩
    · exact List.forall_mem_append.2
        ⟨fun entry hm => (hentries entry hm).2.1, List.forall_mem_singleton.2 hfollows⟩
    · rw [List.dropLast_concat]
      exact fun entry hm => (hentries entry hm).2.2
    · rw [List.getLast?_concat]
      rintro entry ⟨⟩
      exact hopen

/-- A directive goes to the last entry: the sections of all others are closed. -/
theorem directive {last : Entry} {text : List Char} {directive : Directive}
    (h : IsAnnotated seen (entries ++ [last])) (hd : directiveOf? raw = some text)
    (hs : directive.Says text) : IsAnnotated (seen ++ [raw]) (entries ++ [directive.apply last]) := by
  obtain ⟨hentries, hwithin, hfollows, hopen⟩ := concat_iff.1 h
  have hlength : seen.length ≤ (seen ++ [raw]).length := by simp
  refine concat_iff.2 ⟨?_, ?_⟩
  · intro entry hm
    obtain ⟨hn, hf, hclosed⟩ := hentries entry hm
    rw [remarks_concat_of_not_isOpen hn hclosed]
    exact ⟨Nat.le_trans hn hlength, hf, fun ho => hclosed ((isOpen_concat_iff hn).1 ho).1⟩
  · rw [Directive.line_apply, remarks_concat_of_isOpen hwithin hopen, hd]
    exact ⟨Nat.le_trans hwithin hlength, hfollows.apply hs,
      (isOpen_concat_iff hwithin).2 ⟨hopen, isEntryLine_of_directive hd⟩⟩

/-- An entry line closes the section before it and opens one in which nothing has been said. -/
theorem entry {entry : Entry} (h : IsAnnotated seen entries) (he : isEntryLine raw = true)
    (hr : Entry.read (seen.length + 1) (Text.trimStart raw) = .ok entry) :
    IsAnnotated (seen ++ [raw]) (entries ++ [entry]) := by
  obtain ⟨-, hline, hmime, hadjustment⟩ := Entry.fields_of_read hr
  have hlast : entry.line = (seen ++ [raw]).length := by rw [hline, List.length_append]; rfl
  have hlength : seen.length ≤ (seen ++ [raw]).length := by simp
  refine concat_iff.2 ⟨?_, Nat.le_of_eq hlast, ?_, ?_⟩
  · intro other hm
    have hn := h.within other hm
    rw [remarks_concat_of_none hn (directiveOf?_eq_none he)]
    refine ⟨Nat.le_trans hn hlength, h.follows other hm, fun ho => ?_⟩
    exact absurd ((isOpen_concat_iff hn).1 ho).2 (by simp [he])
  · rw [hlast, remarks_length]
    exact ⟨hmime, fun number => by rw [hadjustment]; rfl⟩
  · rw [IsOpen, hlast, List.drop_length]
    simp

theorem keep {draft next : Draft} (h : IsAnnotated seen draft.forest.preorder)
    (hs : Draft.Step (seen.length + 1) raw draft next) :
    IsAnnotated (seen ++ [raw]) next.forest.preorder := by
  cases hs with
  | silent draft he hd => exact h.silent he hd
  | directive forest last directive hle hd hr =>
    rw [preorder_graft_leaf last hle] at h
    rw [preorder_graft_leaf (directive.apply last) hle]
    exact h.directive hd (Directive.says_of_read hr)
  | entry draft entry he hr hle =>
    rw [preorder_graft_leaf entry hle]
    exact h.entry he hr

theorem of_addLines {lines : List (List Char)} {draft : Draft}
    (h : Draft.addLines {} 1 lines = .ok draft) : IsAnnotated lines draft.forest.preorder :=
  Draft.addLines_invariant (P := fun seen draft => IsAnnotated seen draft.forest.preorder) start
    (fun _ _ _ _ hp _ hs => hp.keep hs) h

end IsAnnotated

/-! ## Texts without their directives -/

/-- A line, left blank if it is a directive line. -/
def withoutDirective (raw : List Char) : List Char :=
  if (directiveOf? raw).isSome then [] else raw

/-- A draft without what directives said. -/
def Draft.bare (draft : Draft) : Draft := { draft with forest := draft.forest.map Entry.bare }

theorem Entry.bare_of_read {number : Nat} {line : List Char} {entry : Entry}
    (h : Entry.read number line = .ok entry) : entry.bare = entry := by
  obtain ⟨-, -, hmime, hadjustment⟩ := Entry.fields_of_read h
  cases entry
  simp_all [Entry.bare]

theorem Draft.addLine_withoutDirective {number : Nat} {raw : List Char} {draft next : Draft}
    (hs : Draft.Step number raw draft next) :
    draft.bare.addLine number (withoutDirective raw) = .ok next.bare := by
  cases hs with
  | silent draft he hd =>
    rw [withoutDirective, hd]
    exact Draft.addLine_silent draft.bare number he hd
  | directive forest last directive hle hd hr =>
    rw [withoutDirective, hd]
    have hbare : (forest.graft last.level (leaf last)).map Entry.bare =
        (forest.graft last.level (leaf (directive.apply last))).map Entry.bare := by
      simp [map_graft]
    rw [Option.isSome_some, if_pos rfl, Draft.addLine_silent _ number rfl rfl, Draft.bare, Draft.bare,
      hbare]
  | entry draft entry he hr hle =>
    have hd : directiveOf? raw = none := directiveOf?_eq_none he
    have hreach : entry.level ≤ draft.bare.forest.edge.length := by
      simpa [Draft.bare, edge_map] using hle
    rw [withoutDirective, hd]
    refine (Draft.addLine_attached he hr hreach).trans ?_
    simp [Draft.bare, map_graft, Entry.bare_of_read hr]

theorem Draft.addLines_withoutDirective {lines : List (List Char)} {draft : Draft}
    (h : Draft.addLines {} 1 lines = .ok draft) :
    Draft.addLines {} 1 (lines.map withoutDirective) = .ok draft.bare :=
  @Draft.addLines_transport Draft.bare withoutDirective 0 Draft.addLine_withoutDirective lines draft h

/-! ## Whole texts -/

/-- The entry that a directive finds on the right edge is the one that was read last. -/
theorem Draft.Grown.lastAt?_eq {draft : Draft} (h : draft.Grown) :
    (draft.lastLevel.bind fun level => draft.forest.lastAt? level) =
      draft.forest.preorder.getLast? := by
  cases h with
  | start => rfl
  | entry forest last hle =>
    rw [preorder_graft_leaf last hle, List.getLast?_concat]
    exact lastAt?_graft_leaf last hle

theorem Draft.addLines_silent (draft : Draft) (number : Nat) {lines : List (List Char)}
    (h : ∀ raw ∈ lines, isEntryLine raw = false ∧ directiveOf? raw = none) :
    draft.addLines number lines = .ok draft := by
  induction lines generalizing number with
  | nil => rfl
  | cons raw rest ih =>
    obtain ⟨he, hd⟩ := h raw List.mem_cons_self
    rw [Draft.addLines, Draft.addLine_silent draft number he hd]
    exact ih (number + 1) fun line hl => h line (List.mem_cons_of_mem raw hl)

/-- A directive is refused on its own line if no entry line comes before it. -/
theorem readForest_orphan {text : List Char} {before after : List (List Char)} {raw : List Char}
    (hlines : Text.lines text = before ++ raw :: after) (hd : (directiveOf? raw).isSome)
    (hbefore : ∀ line ∈ before, isEntryLine line = false ∧ directiveOf? line = none) :
    readForest text = .error (.line (before.length + 1) .orphanDirective) := by
  obtain ⟨directive, hd⟩ := Option.isSome_iff_exists.1 hd
  apply map_eq_error_iff.2
  rw [hlines]
  apply Draft.addLines_eq_error_iff.2
  refine ⟨before, raw, after, {}, rfl, Draft.addLines_silent {} 1 hbefore, ?_⟩
  rw [Draft.addLine_directive {} _ hd, Nat.add_comm]

/-- **The directives up to the next entry line say what an entry is annotated with, and nothing else.** -/
theorem readForest_annotated (text : List Char) :
    (∀ forest, readForest text = .ok forest →
      (∀ entry ∈ forest.preorder,
        entry.mime = (lastArgument "mime" (remarks (Text.lines text) entry.line)).map String.ofList ∧
        (∀ number, entry.adjustment.map Except.ok =
          (lastArgument "strength" (remarks (Text.lines text) entry.line)).map
            (Adjustment.read number)) ∧
        -- All other fields come from the entry line.
        ∃ line ∈ entryLines (Text.lines text), line.number = entry.line ∧
          Entry.read line.number line.text = .ok entry.bare) ∧
      -- Without its directive lines, the text gives the same entries with nothing said about them.
      ∀ other, Text.lines other = (Text.lines text).map withoutDirective →
        readForest other = .ok (forest.map Entry.bare)) ∧
    -- After any lines, the entry that a directive would find is that of the last entry line.
    (∀ seen draft, Draft.addLines {} 1 seen = .ok draft →
      (draft.lastLevel.bind fun level => draft.forest.lastAt? level) =
        draft.forest.preorder.getLast? ∧
      draft.forest.preorder.getLast?.map (fun entry => Except.ok entry.bare) =
        (entryLines seen).getLast?.map fun line => Entry.read line.number line.text) ∧
    -- The first directive that comes before all entry lines is refused.
    ∀ before raw after, Text.lines text = before ++ raw :: after → (directiveOf? raw).isSome →
      (∀ line ∈ before, isEntryLine line = false ∧ directiveOf? line = none) →
        readForest text = .error (.line (before.length + 1) .orphanDirective) := by
  refine ⟨?_, ?_, fun before raw after hlines hd hbefore => readForest_orphan hlines hd hbefore⟩
  · intro forest h
    obtain ⟨draft, hdraft, rfl⟩ := map_eq_ok_iff.1 h
    refine ⟨?_, ?_⟩
    · intro entry hm
      have hfollows := (IsAnnotated.of_addLines hdraft).follows entry hm
      exact ⟨hfollows.mime, hfollows.adjustment, (Draft.outlines_of_addLines hdraft).exists_line hm⟩
    · intro other hlines
      rw [readForest, hlines, Draft.addLines_withoutDirective hdraft]
      rfl
  · intro seen draft h
    refine ⟨(Draft.grown_of_addLines h).lastAt?_eq, ?_⟩
    have hlisted := congrArg List.getLast? (Draft.outlines_of_addLines h).listed
    rwa [List.getLast?_map, List.getLast?_map] at hlisted

/-- Two MIME types for one entry below another, and a directive with no entry to be about. -/
theorem readForest_annotated_below :
    (∃ forest, readForest
        "0 byte 1 a\n!:mime b/c\n>1 byte 2 d\n!:mime e/f\n!:strength -3\n!:mime  g/h \n0 byte 3 i\n".toList =
          .ok forest ∧
      (∃ entry ∈ forest.preorder, entry.line = 3 ∧ entry.mime = some "g/h" ∧
        entry.adjustment = some (.sub 3)) ∧
      readForest "0 byte 1 a\n\n>1 byte 2 d\n\n\n\n0 byte 3 i\n".toList =
        .ok (forest.map Entry.bare)) ∧
    (∃ draft, Draft.addLines {} 1 ["0 byte 1 a".toList, ">1 byte 2 d".toList] = .ok draft ∧
      (draft.lastLevel.bind fun level => draft.forest.lastAt? level) =
        draft.forest.preorder.getLast?) ∧
    readForest "# no entry\n!:mime a/b\n0 byte 1 a\n".toList = .error (.line 2 .orphanDirective) := by
  have hread : (readForest
      "0 byte 1 a\n!:mime b/c\n>1 byte 2 d\n!:mime e/f\n!:strength -3\n!:mime  g/h \n0 byte 3 i\n".toList).map
        (fun f => f.preorder.map Entry.line) = .ok [1, 3, 7] := by decide +kernel
  obtain ⟨forest, hforest, hlines⟩ := map_eq_ok_iff.1 hread
  obtain ⟨hentries, hblank⟩ := (readForest_annotated _).1 forest hforest
  obtain ⟨draft, hdraft⟩ : ∃ draft,
      Draft.addLines {} 1 ["0 byte 1 a".toList, ">1 byte 2 d".toList] = .ok draft := ⟨_, rfl⟩
  have hthird : 3 ∈ forest.preorder.map Entry.line := by rw [hlines]; decide
  obtain ⟨entry, hm, hline⟩ := List.mem_map.1 hthird
  obtain ⟨hmime, hadjustment, -⟩ := hentries entry hm
  rw [hline] at hmime hadjustment
  have hargument : lastArgument "strength" (remarks (Text.lines
      "0 byte 1 a\n!:mime b/c\n>1 byte 2 d\n!:mime e/f\n!:strength -3\n!:mime  g/h \n0 byte 3 i\n".toList)
        3) = some "-3".toList := by decide +kernel
  have hread : Adjustment.read 5 "-3".toList = .ok (.sub 3) := by decide +kernel
  refine ⟨⟨forest, hforest, ⟨entry, hm, hline, ?_, ?_⟩, hblank _ (by decide +kernel)⟩,
    ⟨draft, hdraft, ((readForest_annotated []).2.1 _ draft hdraft).1⟩, ?_⟩
  · rw [hmime]
    decide +kernel
  · have hfifth := hadjustment 5
    rw [hargument, Option.map_some, hread] at hfifth
    obtain ⟨adjustment, hsome, hok⟩ := Option.map_eq_some_iff.1 hfifth
    rw [hsome, Except.ok.inj hok]
  · exact (readForest_annotated _).2.2 ["# no entry".toList] "!:mime a/b".toList ["0 byte 1 a".toList]
      (by decide +kernel) (by decide +kernel) (by decide +kernel)

end Hallmark.Signature
