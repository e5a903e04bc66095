import Mathlib.Data.List.Basic
import Hallmark.Signature.Message

/-!
# `Hallmark/Proofs/Signature/Template.lean` — how a template is written

A template is a sequence of spans: plain characters, two percent signs for one, and conversions, each with
what stands between its percent sign and the character that chooses its form (`Adornment`). Every part of
that is the longest run of its characters (`IsRun`), so a template is cut in one way only (`Cuts`), and the
reader finds this cut (`Cuts.read_eq`). A conversion that chooses no form loses what adorns it. Main statement:
`unknown_conversions_unadorned`.
-/

set_option autoImplicit false

namespace Hallmark.Signature.Template

/-! ## Runs -/

section Runs

variable {p : Char → Bool} {run rest : List Char}

/-- The run is all that characters of a kind make up at the front. -/
structure IsRun (p : Char → Bool) (run rest : List Char) : Prop where
  all : ∀ c ∈ run, p c = true
  ends : ∀ c, rest.head? = some c → p c = false

instance (p : Char → Bool) (run rest : List Char) : Decidable (IsRun p run rest) :=
  decidable_of_iff (run.all p = true ∧ rest.head?.all (!p ·) = true) <| by
    simp only [List.all_eq_true, Option.all_eq_true, Bool.not_eq_true']
    exact ⟨fun h => ⟨h.1, h.2⟩, fun h => ⟨h.all, h.ends⟩⟩

theorem isRun_takeWhile (p : Char → Bool) (cs : List Char) :
    IsRun p (cs.takeWhile p) (cs.dropWhile p) where
  all := List.all_eq_true.1 List.all_takeWhile
  ends := by
    intro c hc
    have hhead := List.head?_dropWhile_not p cs
    rw [hc] at hhead
    exact hhead

theorem exists_run (p : Char → Bool) (cs : List Char) :
    ∃ run rest, cs = run ++ rest ∧ IsRun p run rest :=
  ⟨_, _, List.takeWhile_append_dropWhile.symm, isRun_takeWhile p cs⟩

theorem IsRun.takeWhile (h : IsRun p run rest) : (run ++ rest).takeWhile p = run := by
  rw [List.takeWhile_append_of_pos h.all]
  cases rest with
  | nil => rw [List.takeWhile_nil, List.append_nil]
  | cons c rest => rw [List.takeWhile_cons_of_neg (by simp [h.ends c rfl]), List.append_nil]

theorem IsRun.dropWhile (h : IsRun p run rest) : (run ++ rest).dropWhile p = rest := by
  rw [List.dropWhile_append_of_pos h.all]
  cases rest with
  | nil => rfl
  | cons c rest => exact List.dropWhile_cons_of_neg (by simp [h.ends c rfl])

end Runs

/-! ## What adorns a conversion -/

def isFlag (c : Char) : Bool := c == '-' || c == '0' || c == '#' || c == '+' || c == ' '

/-- What stands between a percent sign and the character that chooses the form. -/
structure Adornment where
  flags : List Char := []
  width : List Char := []
  /-- The digits after a point, if there is one. -/
  precision : Option (List Char) := none
  lengths : List Char := []
deriving DecidableEq, Repr

namespace Adornment

def pointed : Option (List Char) → List Char
  | none => []
  | some ds => '.' :: ds

def chars (a : Adornment) : List Char := a.flags ++ (a.width ++ (pointed a.precision ++ a.lengths))

/-- The number that digits write, but no more than the largest count. -/
def clamped (ds : List Char) : Nat := min (Nat.ofDigitChars 10 ds 0) maxCount

/-- The layout that is asked for. -/
def layout (a : Adornment) : Layout where
  left := a.flags.contains '-'
  zero := a.flags.contains '0'
  alternate := a.flags.contains '#'
  width := clamped a.width
  precision := a.precision.map clamped

/-- Either all the digits after a point, or no point. -/
def IsPointed : Option (List Char) → List Char → Prop
  | none, rest => rest.head? ≠ some '.'
  | some ds, rest => IsRun Char.isDigit ds rest

instance (precision : Option (List Char)) (rest : List Char) : Decidable (IsPointed precision rest) :=
  match precision with
  | none => inferInstanceAs (Decidable (rest.head? ≠ some '.'))
  | some ds => inferInstanceAs (Decidable (IsRun Char.isDigit ds rest))

/-- Each part reaches as far as it can before `rest`. -/
structure Before (a : Adornment) (rest : List Char) : Prop where
  flags : IsRun isFlag a.flags (a.width ++ (pointed a.precision ++ (a.lengths ++ rest)))
  width : IsRun Char.isDigit a.width (pointed a.precision ++ (a.lengths ++ rest))
  precision : IsPointed a.precision (a.lengths ++ rest)
  lengths : IsRun isLength a.lengths rest

instance (a : Adornment) (rest : List Char) : Decidable (a.Before rest) :=
  decidable_of_iff
    (IsRun isFlag a.flags (a.width ++ (pointed a.precision ++ (a.lengths ++ rest))) ∧
      IsRun Char.isDigit a.width (pointed a.precision ++ (a.lengths ++ rest)) ∧
      IsPointed a.precision (a.lengths ++ rest) ∧ IsRun isLength a.lengths rest)
    ⟨fun h => ⟨h.1, h.2.1, h.2.2.1, h.2.2.2⟩, fun h => ⟨h.flags, h.width, h.precision, h.lengths⟩⟩

end Adornment

/-! ## Reading it -/

/-- Clamping after each digit comes to clamping the number. -/
theorem foldl_clamped (ds : List Char) (n : Nat) :
    ds.foldl (fun acc d => min (acc * 10 + (d.toNat - 0x30)) maxCount) (min n maxCount) =
      min (Nat.ofDigitChars 10 ds n) maxCount := by
  induction ds generalizing n with
  | nil => rfl
  | cons d ds ih =>
    -- A count that was clamped stays clamped, as a digit multiplies it by ten.
    have hstep : min (min n maxCount * 10 + (d.toNat - 0x30)) maxCount =
        min (10 * n + (d.toNat - '0'.toNat)) maxCount := by
      simp only [maxCount, show '0'.toNat = 0x30 from rfl]
      omega
    rw [List.foldl_cons, hstep, ih, Nat.ofDigitChars_cons]

theorem countOf_eq (ds : List Char) : countOf ds = Adornment.clamped ds := foldl_clamped ds 0

theorem count_append {ds rest : List Char} (h : IsRun Char.isDigit ds rest) :
    count (ds ++ rest) = (Adornment.clamped ds, rest) := by
  rw [count, h.takeWhile, h.dropWhile, countOf_eq]

/-- A layout with the flags that characters ask for. -/
def flagged (l : Layout) (fs : List Char) : Layout :=
  { l with
    left := l.left || fs.contains '-'
    zero := l.zero || fs.contains '0'
    alternate := l.alternate || fs.contains '#' }

theorem isFlag_iff {c : Char} :
    isFlag c = true ↔ c = '-' ∨ c = '0' ∨ c = '#' ∨ c = '+' ∨ c = ' ' := by
  simp only [isFlag, Bool.or_eq_true, beq_iff_eq, or_assoc]

theorem flags_of_not_isFlag {rest : List Char} (h : ∀ c, rest.head? = some c → isFlag c = false)
    (l : Layout) : flags l rest = (l, rest) := by
  cases rest with
  | nil => rfl
  | cons c rest =>
    have hc := h c rfl
    rw [flags]
    all_goals
      rintro cs hcs
      cases hcs
      cases hc

theorem flags_append {fs rest : List Char} (h : IsRun isFlag fs rest) (l : Layout) :
    flags l (fs ++ rest) = (flagged l fs, rest) := by
  obtain ⟨hall, hends⟩ := h
  induction fs generalizing l with
  | nil => simp [flags_of_not_isFlag hends, flagged]
  | cons c fs ih =>
    have hrest := fun l => ih l fun d hd => hall d (List.mem_cons_of_mem c hd)
    rcases isFlag_iff.1 (hall c List.mem_cons_self) with rfl | rfl | rfl | rfl | rfl <;>
      simp [flags, hrest, flagged]

theorem precision_append {point : Option (List Char)} {rest : List Char}
    (h : Adornment.IsPointed point rest) : precision (Adornment.pointed point ++ rest) =
      (point.map Adornment.clamped, rest) := by
  cases point with
  | none =>
    rw [Adornment.pointed, List.nil_append, precision, Option.map_none]
    rintro cs rfl
    exact h rfl
  | some ds =>
    rw [Adornment.pointed, List.cons_append, precision, count_append h, Option.map_some]

/-- The reader takes all of it, and nothing more. -/
theorem layout_append {a : Adornment} {rest : List Char} (h : a.Before rest) :
    layout (a.chars ++ rest) = (a.layout, rest) := by
  have hchars : a.chars ++ rest =
      a.flags ++ (a.width ++ (Adornment.pointed a.precision ++ (a.lengths ++ rest))) := by
    simp only [Adornment.chars, List.append_assoc]
  rw [layout, hchars]
  simp only [flags_append h.flags, count_append h.width, precision_append h.precision, h.lengths.dropWhile]
  simp [flagged, Adornment.layout]

theorem exists_pointed (cs : List Char) :
    ∃ point rest, cs = Adornment.pointed point ++ rest ∧ Adornment.IsPointed point rest := by
  by_cases hpoint : cs.head? = some '.'
  · obtain ⟨cs, rfl⟩ := List.head?_eq_some_iff.1 hpoint
    obtain ⟨ds, rest, rfl, hds⟩ := exists_run Char.isDigit cs
    exact ⟨some ds, rest, rfl, hds⟩
  · exact ⟨none, cs, rfl, hpoint⟩

/-- Every text starts with what could adorn a conversion, if only with nothing. -/
theorem exists_adornment (cs : List Char) :
    ∃ (a : Adornment) (rest : List Char), cs = a.chars ++ rest ∧ a.Before rest := by
  obtain ⟨fs, cs, rfl, hflags⟩ := exists_run isFlag cs
  obtain ⟨ds, cs, rfl, hwidth⟩ := exists_run Char.isDigit cs
  obtain ⟨point, cs, rfl, hprecision⟩ := exists_pointed cs
  obtain ⟨ls, rest, rfl, hlengths⟩ := exists_run isLength cs
  refine ⟨⟨fs, ds, point, ls⟩, rest, ?_, ⟨hflags, hwidth, hprecision, hlengths⟩⟩
  simp only [Adornment.chars, List.append_assoc]

/-! ## Spans -/

inductive Span where
  | plain (c : Char)
  /-- Two percent signs. -/
  | percent
  | conversion (adornment : Adornment) (form : Char)
  /-- A conversion that the end of the template cuts off. -/
  | unfinished (adornment : Adornment)
deriving DecidableEq, Repr

namespace Span

def chars : Span → List Char
  | plain c => [c]
  | percent => ['%', '%']
  | conversion a form => '%' :: (a.chars ++ [form])
  | unfinished a => '%' :: a.chars

def piece : Span → Piece
  | plain c => .plain c
  | percent => .plain '%'
  | conversion a form => .conversion a.layout form
  | unfinished _ => .unfinished

/-- What is printed in its place. -/
def shown (value : MatchValue) (span : Span) : List Char := span.piece.render value

end Span

/-- The spans make up the template. Two percent signs come first, and a conversion is adorned with all that
can adorn it. -/
inductive Cuts : List Char → List Span → Prop
  | nothing : Cuts [] []
  | plain {c : Char} {rest : List Char} {spans : List Span} (hc : c ≠ '%') (h : Cuts rest spans) :
      Cuts (c :: rest) (.plain c :: spans)
  | percent {rest : List Char} {spans : List Span} (h : Cuts rest spans) :
      Cuts ('%' :: '%' :: rest) (.percent :: spans)
  | conversion {a : Adornment} {form : Char} {rest : List Char} {spans : List Span}
      (ha : a.Before (form :: rest)) (hform : a.chars = [] → form ≠ '%') (h : Cuts rest spans) :
      Cuts ('%' :: (a.chars ++ form :: rest)) (.conversion a form :: spans)
  | unfinished {a : Adornment} (ha : a.Before []) : Cuts ('%' :: a.chars) [.unfinished a]

variable {template : List Char} {spans : List Span}

theorem Cuts.flatMap_chars (h : Cuts template spans) : spans.flatMap Span.chars = template := by
  induction h with
  | nothing => rfl
  | plain _ _ ih | percent _ ih => simp [Span.chars, ih]
  | conversion _ _ _ ih => simp [Span.chars, ih]
  | unfinished _ => simp [Span.chars]

theorem percent_not_mem_chars {a : Adornment} {rest : List Char} (ha : a.Before rest) :
    '%' ∉ a.chars := by
  simp only [Adornment.chars, List.mem_append, not_or]
  refine ⟨fun h => ?_, fun h => ?_, ?_, fun h => ?_⟩
  · exact absurd (ha.flags.all _ h) (by decide)
  · exact absurd (ha.width.all _ h) (by decide)
  · have hprecision := ha.precision
    cases hp : a.precision with
    | none => exact List.not_mem_nil
    | some ds =>
      intro h
      rw [hp] at hprecision
      have hmem := (List.mem_cons.1 h).resolve_left (by decide)
      exact absurd (hprecision.all _ hmem) (by decide)
  · exact absurd (ha.lengths.all _ h) (by decide)

/-- **The reader finds the cut.** -/
theorem Cuts.read_eq (h : Cuts template spans) : Template.read template = spans.map Span.piece := by
  induction h with
  | nothing => rw [Template.read, List.map_nil]
  | plain hc _ ih =>
    rw [Template.read, ih]
    · rfl
    · exact fun _ hpercent _ => hc hpercent
    · exact hc
  | percent _ ih =>
    rw [Template.read, ih]
    rfl
  | @conversion a form rest spans ha hform _ ih =>
    have hlayout := layout_append ha
    -- The reader tries the doubled percent sign first; no adornment starts with one.
    have hpercent : ∀ cs, a.chars ++ form :: rest ≠ '%' :: cs := by
      intro cs hcs
      cases hchars : a.chars with
      | nil =>
        rw [hchars] at hcs
        exact hform hchars (List.cons.inj hcs).1
      | cons c tail =>
        rw [hchars] at hcs
        refine percent_not_mem_chars ha ?_
        rw [hchars, (List.cons.inj hcs).1]
        exact List.mem_cons_self
    rw [Template.read]
    · split
      · next h => exact absurd (h.symm.trans hlayout) (by simp)
      · next h =>
        cases h.symm.trans hlayout
        rw [ih]
        rfl
    · exact hpercent
  | @unfinished a ha =>
    have hlayout := layout_append ha
    rw [List.append_nil] at hlayout
    rw [Template.read]
    · split
      · rfl
      · next h => exact absurd (h.symm.trans hlayout) (by simp)
    · intro cs hcs
      refine percent_not_mem_chars ha ?_
      rw [hcs]
      exact List.mem_cons_self

/-- Every template can be cut. -/
theorem exists_cuts (template : List Char) : ∃ spans, Cuts template spans := by
  fun_induction Template.read template with
  | case1 => exact ⟨[], .nothing⟩
  | case2 cs ih =>
    obtain ⟨spans, hspans⟩ := ih
    exact ⟨_, .percent hspans⟩
  | case3 cs hpercent l hlayout =>
    obtain ⟨a, rest, rfl, ha⟩ := exists_adornment cs
    rw [layout_append ha] at hlayout
    cases hlayout
    rw [List.append_nil]
    exact ⟨_, .unfinished ha⟩
  | case4 cs hpercent l form rest hlayout ih =>
    obtain ⟨spans, hspans⟩ := ih
    obtain ⟨a, rest, rfl, ha⟩ := exists_adornment cs
    rw [layout_append ha] at hlayout
    cases hlayout
    refine ⟨_, .conversion ha ?_ hspans⟩
    rintro hchars rfl
    exact hpercent _ (by rw [hchars, List.nil_append])
  | case5 c cs _ hc ih =>
    obtain ⟨spans, hspans⟩ := ih
    exact ⟨_, .plain hc hspans⟩

theorem Cuts.render_eq (h : Cuts template spans) (value : MatchValue) :
    Template.render template value = spans.flatMap (Span.shown value) := by
  rw [Template.render, h.read_eq, List.flatMap_map]
  rfl

/-- Without percent signs, a template is printed as it stands. -/
theorem render_of_not_mem (h : '%' ∉ template) (value : MatchValue) :
    Template.render template value = template := by
  have hcuts : Cuts template (template.map .plain) := by
    induction template with
    | nil => exact .nothing
    | cons c template ih =>
      rw [List.mem_cons, not_or] at h
      exact .plain (Ne.symm h.1) (ih h.2)
  rw [hcuts.render_eq, List.flatMap_map]
  exact List.flatMap_singleton' template

/-! ## Conversions that choose no form -/

namespace Span

/-- The span as it stands, but for the second of two percent signs. -/
def kept : Span → List Char
  | percent => ['%']
  | span => span.chars

def adornment : Span → List Char
  | plain _ | percent => []
  | conversion a _ | unfinished a => a.chars

/-- What is kept without what adorns it. -/
def unadorned : Span → List Char
  | plain c => [c]
  | percent | unfinished _ => ['%']
  | conversion _ form => ['%', form]

theorem length_kept (span : Span) :
    span.kept.length = span.unadorned.length + span.adornment.length := by
  cases span <;> simp [kept, chars, adornment, unadorned] <;> omega

theorem kept_of_adornment_eq_nil {span : Span} (h : span.adornment = []) :
    span.kept = span.unadorned := by
  cases span with
  | plain c | percent => rfl
  | conversion a form | unfinished a =>
    have ha : a.chars = [] := h
    simp [kept, chars, unadorned, ha]

end Span

theorem numberForm?_eq_none {form : Char} (h : isForm form = false) (layout : Layout) (word : UInt64)
    (width : Nat) : numberForm? layout form word width = none := by
  simp only [isForm, Bool.or_eq_false_iff, beq_eq_false_iff_ne] at h
  simp [numberForm?, h]

theorem shown_of_not_isForm {span : Span}
    (h : ∀ a form, span = .conversion a form → isForm form = false) (value : MatchValue) :
    span.shown value = span.unadorned := by
  cases span with
  | plain c | percent | unfinished a => rfl
  | conversion a form =>
    have hform := h a form rfl
    cases value with
    | number word width =>
      simp [Span.shown, Span.piece, Piece.render, numberForm?_eq_none hform, Span.unadorned]
    | bytes data => simp [Span.shown, Span.piece, Piece.render, hform, Span.unadorned]

theorem length_flatMap_kept (spans : List Span) : (spans.flatMap Span.kept).length =
    (spans.flatMap Span.unadorned).length + (spans.flatMap Span.adornment).length := by
  induction spans with
  | nil => rfl
  | cons span spans ih =>
    simp only [List.flatMap_cons, List.length_append, span.length_kept, ih]
    omega

theorem flatMap_unadorned_eq_iff (spans : List Span) :
    spans.flatMap Span.unadorned = spans.flatMap Span.kept ↔ ∀ span ∈ spans, span.adornment = [] := by
  have hlength := length_flatMap_kept spans
  constructor
  · intro h
    rw [← h] at hlength
    have hnone : spans.flatMap Span.adornment = [] := List.eq_nil_of_length_eq_zero (by omega)
    exact List.flatMap_eq_nil_iff.1 hnone
  · intro h
    exact List.flatMap_congr fun span hspan => (Span.kept_of_adornment_eq_nil (h span hspan)).symm

/-- **A conversion that chooses no form loses what adorns it.** A template without any other conversion is
printed with one percent sign for two and, after every other percent sign, only the character that should
have chosen the form. It is printed as it stands, but for the doubled percent signs, just if nothing adorns
its conversions. -/
theorem unknown_conversions_unadorned (h : Cuts template spans)
    (hunknown : ∀ a form, Span.conversion a form ∈ spans → isForm form = false) (value : MatchValue) :
    spans.flatMap Span.chars = template ∧
    Template.render template value = spans.flatMap Span.unadorned ∧
    (Template.render template value = spans.flatMap Span.kept ↔
      ∀ span ∈ spans, span.adornment = []) := by
  have hshown : ∀ span ∈ spans, span.shown value = span.unadorned := by
    rintro span hspan
    refine shown_of_not_isForm ?_ value
    rintro a form rfl
    exact hunknown a form hspan
  have hrender : Template.render template value = spans.flatMap Span.unadorned := by
    rw [h.render_eq]
    exact List.flatMap_congr hshown
  refine ⟨h.flatMap_chars, hrender, ?_⟩
  rw [hrender]
  exact flatMap_unadorned_eq_iff spans

/-- Flags, a width and a precision are lost, also at the end. -/
theorem unknown_conversions_unadorned_mixed :
    ∃ spans, Cuts "1%-5k%%2%+.3".toList spans ∧
      (∀ a form, Span.conversion a form ∈ spans → isForm form = false) ∧
      spans.flatMap Span.kept = "1%-5k%2%+.3".toList ∧
      Template.render "1%-5k%%2%+.3".toList (.bytes [0x41]) = "1%k%2%".toList := by
  let spans : List Span :=
    [.plain '1', .conversion { flags := ['-'], width := ['5'] } 'k', .percent, .plain '2',
      .unfinished { flags := ['+'], precision := some ['3'] }]
  have hcuts : Cuts "1%-5k%%2%+.3".toList spans :=
    .plain (by decide) <|
      .conversion (a := { flags := ['-'], width := ['5'] }) (by decide) (by decide) <|
        .percent <| .plain (by decide) <|
          .unfinished (a := { flags := ['+'], precision := some ['3'] }) (by decide)
  have hunknown : ∀ a form, Span.conversion a form ∈ spans → isForm form = false := by
    intro a form hmem
    obtain ⟨-, rfl⟩ : a = { flags := ['-'], width := ['5'] } ∧ form = 'k' := by
      simpa [spans] using hmem
    decide
  exact ⟨spans, hcuts, hunknown, by decide,
    (unknown_conversions_unadorned hcuts hunknown (.bytes [0x41])).2.1⟩

/-- The width before a character that chooses no form is not printed. -/
theorem unknown_conversions_unadorned_width :
    ∃ spans, Cuts "%5k".toList spans ∧
      (∀ a form, Span.conversion a form ∈ spans → isForm form = false) ∧
      spans.flatMap Span.kept = "%5k".toList ∧
      Template.render "%5k".toList (.number 1 1) = "%k".toList ∧
      Template.render "%5k".toList (.number 1 1) ≠ spans.flatMap Span.kept := by
  have hcuts : Cuts "%5k".toList [.conversion { width := ['5'] } 'k'] :=
    .conversion (a := { width := ['5'] }) (by decide) (by decide) .nothing
  have hrender : Template.render "%5k".toList (.number 1 1) = "%k".toList := by
    rw [hcuts.render_eq]
    decide
  refine ⟨_, hcuts, ?_, by decide, hrender, ?_⟩
  · intro a form hmem
    obtain ⟨-, rfl⟩ : a = { width := ['5'] } ∧ form = 'k' := by simpa using hmem
    decide
  · rw [hrender]
    decide

end Hallmark.Signature.Template
