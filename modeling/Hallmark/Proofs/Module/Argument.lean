import Hallmark.Host.Session
import Hallmark.Proofs.Module.LifeCycle
import Hallmark.Proofs.Module.Trail
import Hallmark.Proofs.Text.Splitting

/-!
# `Hallmark/Proofs/Module/Argument.lean` — which database an argument string names

The pieces of an argument string are looked through for the first that gives a path; what else stands
there, and in which order, does not matter, with one exception: a bare key gives no path, yet no piece
after it counts (`databaseArgument?_of_firstGiven`). A path that is given decides alone which database is
opened. Arguments that give none do as much as no arguments, and are warned of unless they are blank.
Main statement: `argument_decides`.
-/

set_option autoImplicit false

namespace Hallmark

namespace Module

open Text (IsTrimmed isTrimmed_trim)

variable {arguments path : String} {piece value : List Char} {before : List (List Char)}

/-! ## Pieces -/

/-- A piece gives a path: the key, and a path that is not blank, perhaps with blanks around it. -/
def Gives (piece : List Char) (path : String) : Prop :=
  ∃ value, piece = databaseKey ++ value ∧ path.toList = Text.trim value ∧ path ≠ ""

/-- A path is given after some pieces of an argument string that give none. -/
structure FirstGiven (arguments : String) (before : List (List Char)) (path : String) : Prop where
  given : ∃ piece after, argumentPieces arguments = before ++ piece :: after ∧ Gives piece path
  first : ∀ piece ∈ before, ∀ other, ¬ Gives piece other

theorem isTrimmed_of_mem (h : piece ∈ argumentPieces arguments) : IsTrimmed piece := by
  obtain ⟨cs, -, rfl⟩ := List.mem_map.1 h
  exact isTrimmed_trim cs

theorem gives_of_trim_ne_nil (h : Text.trim value ≠ []) :
    Gives (databaseKey ++ value) (String.ofList (Text.trim value)) :=
  ⟨value, rfl, String.toList_ofList, by simpa [String.ofList_eq_empty_iff] using h⟩

/-- A piece that has the key but gives no path is the key alone. -/
theorem eq_nil_of_not_gives (ht : IsTrimmed (databaseKey ++ value))
    (h : ∀ path, ¬ Gives (databaseKey ++ value) path) : value = [] := by
  have htrim : Text.trim value = [] := by
    by_contra hne
    exact h _ (gives_of_trim_ne_nil hne)
  by_contra hne
  have hlast := List.getLast?_eq_some_getLast hne
  have hblank := Text.trim_eq_nil_iff.1 htrim _ (List.getLast_mem hne)
  have hnot := ht.last (value.getLast hne) (by rw [List.getLast?_append, hlast]; rfl)
  rw [hblank] at hnot
  cases hnot

/-- Where some piece gives a path, one of them is the first. -/
theorem exists_firstGiven (h : piece ∈ argumentPieces arguments) (hg : Gives piece path) :
    ∃ before path, FirstGiven arguments before path := by
  classical
  have hfind : ((argumentPieces arguments).find? fun p => ∃ path, Gives p path).isSome :=
    List.find?_isSome.2 ⟨piece, h, decide_eq_true ⟨path, hg⟩⟩
  obtain ⟨first, hfirst⟩ := Option.isSome_iff_exists.1 hfind
  obtain ⟨hgives, before, after, hsplit, hbefore⟩ := List.find?_eq_some_iff_append.1 hfirst
  obtain ⟨path, hpath⟩ := of_decide_eq_true hgives
  refine ⟨before, path, ⟨first, after, hsplit, hpath⟩, ?_⟩
  intro p hp other hother
  have hnot := hbefore p hp
  rw [decide_eq_true ⟨other, hother⟩] at hnot
  cases hnot

/-! ## What an argument string names -/

/-- The first path counts unless there is a bare key before it. -/
theorem databaseArgument?_of_firstGiven (h : FirstGiven arguments before path) :
    databaseArgument? arguments = if databaseKey ∈ before then none else some path := by
  obtain ⟨⟨piece, after, hpieces, value, rfl, hpath, hne⟩, hfirst⟩ := h
  have hbare (p : List Char) (hp : p ∈ before) (v : List Char)
      (hv : Text.stripStart? databaseKey p = some v) : v = [] ∧ p = databaseKey := by
    obtain rfl := Text.stripStart?_eq_some_iff.1 hv
    have hmem : databaseKey ++ v ∈ argumentPieces arguments := by
      rw [hpieces]
      exact List.mem_append_left _ hp
    obtain rfl := eq_nil_of_not_gives (isTrimmed_of_mem hmem) (hfirst _ hp)
    exact ⟨rfl, List.append_nil databaseKey⟩
  rw [databaseArgument?, hpieces, List.findSome?_append]
  by_cases hkey : databaseKey ∈ before
  · rw [if_pos hkey]
    have hsome : (before.findSome? (Text.stripStart? databaseKey)).isSome :=
      List.findSome?_isSome_iff.2 ⟨databaseKey, hkey, rfl⟩
    obtain ⟨v, hv⟩ := Option.isSome_iff_exists.1 hsome
    obtain ⟨p, hp, hstrip⟩ := List.exists_of_findSome?_eq_some hv
    obtain ⟨rfl, -⟩ := hbare p hp v hstrip
    rw [hv]
    rfl
  · rw [if_neg hkey]
    have hnone : before.findSome? (Text.stripStart? databaseKey) = none := by
      rw [List.findSome?_eq_none_iff]
      intro p hp
      cases hv : Text.stripStart? databaseKey p with
      | none => rfl
      | some v => exact absurd ((hbare p hp v hv).2 ▸ hp) hkey
    have hsome : Text.stripStart? databaseKey (databaseKey ++ value) = some value :=
      Text.stripStart?_eq_some_iff.2 rfl
    rw [hnone, Option.none_or, List.findSome?_cons, hsome]
    simp [hne, ← hpath]

/-- Arguments of which no piece gives a path name no database. -/
theorem databaseArgument?_eq_none
    (h : ∀ piece ∈ argumentPieces arguments, ∀ path, ¬ Gives piece path) :
    databaseArgument? arguments = none := by
  cases hf : (argumentPieces arguments).findSome? (Text.stripStart? databaseKey) with
  | none => rw [databaseArgument?, hf]
  | some value =>
    obtain ⟨piece, hpiece, hstrip⟩ := List.exists_of_findSome?_eq_some hf
    obtain rfl := Text.stripStart?_eq_some_iff.1 hstrip
    have htrim : Text.trim value = [] := by
      by_contra hne
      exact h _ hpiece _ (gives_of_trim_ne_nil hne)
    simp [databaseArgument?, hf, htrim]

theorem databaseArgument?_eq_none_iff :
    databaseArgument? arguments = none ↔
      ∀ before path, FirstGiven arguments before path → databaseKey ∈ before := by
  constructor
  · intro hnone before path h
    rw [databaseArgument?_of_firstGiven h] at hnone
    by_contra hkey
    rw [if_neg hkey] at hnone
    cases hnone
  · intro h
    by_cases hgives : ∃ piece ∈ argumentPieces arguments, ∃ path, Gives piece path
    · obtain ⟨piece, hpiece, path, hpath⟩ := hgives
      obtain ⟨before, path, hfirst⟩ := exists_firstGiven hpiece hpath
      rw [databaseArgument?_of_firstGiven hfirst, if_pos (h before path hfirst)]
    · refine databaseArgument?_eq_none ?_
      intro piece hpiece path hpath
      exact hgives ⟨piece, hpiece, path, hpath⟩

theorem isUnrecognized_iff :
    isUnrecognized arguments = true ↔
      (∃ c ∈ arguments.toList, Text.isBlank c = false) ∧ databaseArgument? arguments = none := by
  have hblank : (Text.trim arguments.toList).isEmpty = false ↔
      ∃ c ∈ arguments.toList, Text.isBlank c = false := by
    rw [← Bool.not_eq_true, List.isEmpty_iff, Text.trim_eq_nil_iff]
    simp
  rw [isUnrecognized, Bool.and_eq_true, Bool.not_eq_true', hblank, Option.isNone_iff_eq_none]

end Module

namespace FileTypeModule

open Audit (Event)
open Host (DatabaseLoader)
open Hallmark.Module (FirstGiven Gives argumentPieces databaseArgument? databaseKey)

/-! ## Preparing -/

section Preparing

variable {σ : Type} [DatabaseLoader σ] {m : FileTypeModule σ} {arguments path : String} {world : σ}

/-- What preparing a module over the database at a path comes to, whichever matcher it was made with and
wherever its settings have their database. -/
def preparedOver (m : FileTypeModule σ) (path : String) (world : σ) : Status × FileTypeModule σ :=
  match m.config.validate, DatabaseLoader.load path world with
  | .ok (), .ok matcher => (.ok, { m with matcher := some matcher })
  | _, _ => (.fail, { m with matcher := none })

theorem prepare_of_named (h : databaseArgument? arguments = some path) :
    (m.prepare arguments world).value = m.preparedOver path world := by
  cases hv : m.config.validate with
  | error e =>
    have hc : (m.chooseMatcher arguments world).value = .error e := by simp [chooseMatcher, hv]
    rw [prepare_of_refused hc, preparedOver, hv]
  | ok =>
    have hc : (m.chooseMatcher arguments world).value = (loadDatabase path world).value := by
      simp [chooseMatcher, hv, h]
    cases hl : DatabaseLoader.load path world with
    | error e =>
      have hc : (m.chooseMatcher arguments world).value = .error (.signature e) := by
        simp [hc, loadDatabase, hl]
      rw [prepare_of_refused hc, preparedOver, hv, hl]
    | ok matcher =>
      have hc : (m.chooseMatcher arguments world).value = .ok matcher := by
        simp [hc, loadDatabase, hl]
      rw [prepare_of_chosen hc, preparedOver, hv, hl]

/-- Arguments that name no database do as much as no arguments. -/
theorem prepare_of_unnamed (h : databaseArgument? arguments = none) :
    (m.prepare arguments world).value = (m.prepare "" world).value := by
  have hnone : databaseArgument? "" = none := by decide
  have hchoose : m.chooseMatcher arguments = m.chooseMatcher "" := by
    simp only [chooseMatcher, h, hnone]
  cases hc : (m.chooseMatcher "" world).value with
  | error e => rw [prepare_of_refused hc, prepare_of_refused (hchoose ▸ hc)]
  | ok matcher => rw [prepare_of_chosen hc, prepare_of_chosen (hchoose ▸ hc)]

theorem argumentsIgnored_mem_prepare_iff {source text : String} :
    .argumentsIgnored source text ∈ (m.prepare arguments world).events ↔
      Module.isUnrecognized arguments = true ∧ source = info.name ∧ text = arguments := by
  constructor
  · intro h
    rcases of_mem_prepare h with ⟨hunrecognized, heq⟩ | ⟨path, heq⟩ | ⟨e, heq⟩ | ⟨version, heq⟩
    · obtain ⟨rfl, rfl⟩ := Event.argumentsIgnored.inj heq
      exact ⟨hunrecognized, rfl, rfl⟩
    · cases heq
    · cases heq
    · cases heq
  · rintro ⟨hunrecognized, rfl, rfl⟩
    rw [prepare, Action.events_bind, List.mem_append, Action.emitIf_apply, if_pos hunrecognized]
    exact .inl (List.mem_singleton.2 rfl)

/-- **The first path that the pieces of an argument string give decides which database is opened,** unless
there is a bare key before it. -/
theorem argument_decides (m : FileTypeModule σ) (arguments : String) (world : σ) :
    (∀ before path, FirstGiven arguments before path →
      (m.prepare arguments world).value =
        if databaseKey ∈ before then (m.prepare "" world).value else m.preparedOver path world) ∧
    ((∀ piece ∈ argumentPieces arguments, ∀ path, ¬ Gives piece path) →
      (m.prepare arguments world).value = (m.prepare "" world).value) ∧
    -- There is a first path where there is any.
    (∀ piece ∈ argumentPieces arguments, ∀ path, Gives piece path →
      ∃ before path, FirstGiven arguments before path) ∧
    -- A warning tells of arguments that were of no use.
    ∀ source text, .argumentsIgnored source text ∈ (m.prepare arguments world).events ↔
      source = info.name ∧ text = arguments ∧ (∃ c ∈ arguments.toList, Text.isBlank c = false) ∧
        ∀ before path, FirstGiven arguments before path → databaseKey ∈ before := by
  refine ⟨?_, ?_, ?_, ?_⟩
  · intro before path h
    have hnamed := Module.databaseArgument?_of_firstGiven h
    split
    · rename_i hkey
      rw [if_pos hkey] at hnamed
      exact prepare_of_unnamed hnamed
    · rename_i hkey
      rw [if_neg hkey] at hnamed
      exact prepare_of_named hnamed
  · intro h
    exact prepare_of_unnamed (Module.databaseArgument?_eq_none h)
  · intro piece hpiece path hpath
    exact Module.exists_firstGiven hpiece hpath
  · intro source text
    rw [argumentsIgnored_mem_prepare_iff, Module.isUnrecognized_iff,
      Module.databaseArgument?_eq_none_iff]
    exact and_comm.trans and_assoc

end Preparing

open Host (Session)

/-- Blanks, other arguments and a bare key behind the path do not keep a module from it, although the
module was made with a matcher. -/
theorem argument_decides_over_preset :
    ∃ m : FileTypeModule Session, m.preset.isSome = true ∧
      FirstGiven " verbose; database= m.mgc ;database=" ["verbose".toList] "m.mgc" ∧
      (m.prepare " verbose; database= m.mgc ;database=" {}).value = m.preparedOver "m.mgc" {} ∧
      m.preparedOver "m.mgc" {} = (.fail, { m with matcher := none }) := by
  let session : Session := {}
  let m : FileTypeModule Session := ofMatcher (session.scripted 0)
  have hfirst : FirstGiven " verbose; database= m.mgc ;database=" ["verbose".toList] "m.mgc" := by
    refine ⟨⟨databaseKey ++ " m.mgc".toList, [databaseKey], by decide, _, rfl, by decide, by decide⟩, ?_⟩
    rintro piece hpiece other ⟨value, hvalue, -⟩
    rw [List.mem_singleton.1 hpiece] at hvalue
    cases hvalue
  obtain ⟨hdecides, -⟩ := argument_decides m " verbose; database= m.mgc ;database=" session
  refine ⟨m, rfl, hfirst, ?_, rfl⟩
  rw [hdecides _ _ hfirst, if_neg (by decide)]

/-- A bare key hides the path after it: the module keeps the matcher that it was made with, and warns. -/
theorem argument_decides_hidden :
    ∃ m : FileTypeModule Session,
      FirstGiven "database=;database=m.mgc" [databaseKey] "m.mgc" ∧
      (m.prepare "database=;database=m.mgc" {}).value.1 = .ok ∧
      (m.preparedOver "m.mgc" {}).1 = .fail ∧
      .argumentsIgnored info.name "database=;database=m.mgc" ∈
        (m.prepare "database=;database=m.mgc" {}).events := by
  let session : Session := {}
  refine ⟨ofMatcher (session.scripted 0), ⟨⟨databaseKey ++ "m.mgc".toList, [], by decide, _, rfl,
    by decide, by decide⟩, ?_⟩, rfl, rfl, List.mem_cons_self⟩
  rintro piece hpiece other ⟨value, hvalue, hpath, hne⟩
  obtain rfl : value = [] := by simpa [List.mem_singleton.1 hpiece] using hvalue
  exact hne (String.toList_inj.1 hpath)

end FileTypeModule

end Hallmark
