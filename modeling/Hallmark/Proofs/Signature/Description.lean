import Mathlib.Data.List.Induction
import Hallmark.Proofs.Forest.Mapping
import Hallmark.Signature.Description

/-!
# `Hallmark/Proofs/Signature/Description.lean` — what makes up a description

Whether an entry matches is a matter of the entries above it: each of them must match, and the next is
tried from where that match ends (`matchAlong?`). The walk adds the entries of a signature that match, in
pre-order, one at a time to the description it is handed (`walk_eq_foldl`). So they are all that a description
is made of: the last MIME type among them, and their messages one after the other (`Spells`). What stands
below an entry that does not match is of no account (`DiffersHidden`), and messages have no say in what
matches. Main statement: `describe?_matched`.
-/

set_option autoImplicit false

namespace Hallmark.Signature

open Forest

variable {buffer : List UInt8}

/-! ## Which entries match -/

/-- The match of an entry that stands below others, the nearest first. -/
def matchAlong? (buffer : List UInt8) : (above : List Entry) → Entry → Option Match
  | [], entry => entry.probe buffer 0
  | parent :: above, entry =>
    (matchAlong? buffer above parent).bind fun found => entry.probe buffer found.stop

/-- An entry with its match, if it has one, given the entries above it. -/
def matching? (buffer : List UInt8) (node : List Entry × Entry) : Option (Entry × Match) :=
  (matchAlong? buffer node.1 node.2).map fun found => (node.2, found)

/-- The entries of a signature that match, in pre-order. -/
def matching (tree : Tree Entry) (buffer : List UInt8) : List (Entry × Match) :=
  tree.lineage.filterMap (matching? buffer)

/-- The entries of a forest that match below a match that ends at `parentStop`, in pre-order. -/
def matchedBelow (buffer : List UInt8) : Forest Entry → (parentStop : Nat) → List (Entry × Match)
  | .empty, _ => []
  | .grow root below after, parentStop =>
    (match root.probe buffer parentStop with
      | some found => (root, found) :: matchedBelow buffer below found.stop
      | none => []) ++ matchedBelow buffer after parentStop

/-- The entries of a signature that match, its root first; `none` if the root does not match. -/
def matched? (tree : Tree Entry) (buffer : List UInt8) : Option (List (Entry × Match)) :=
  (tree.root.probe buffer 0).map fun found =>
    (tree.root, found) :: matchedBelow buffer tree.below found.stop

theorem filterMap_matching?_eq_nil {parent : Entry} {above : List Entry}
    (h : matchAlong? buffer above parent = none) (f : Forest Entry) :
    (f.lineage (parent :: above)).filterMap (matching? buffer) = [] := by
  induction f generalizing parent above with
  | empty => rfl
  | grow root below after ihb iha =>
    have hroot : matchAlong? buffer (parent :: above) root = none := by rw [matchAlong?, h, Option.bind_none]
    rw [lineage, List.filterMap_cons, matching?, hroot, Option.map_none, List.filterMap_append, ihb hroot,
      iha h, List.append_nil]

/-- What matches below a match is just the entries whose line of entries above matches. -/
theorem matchedBelow_eq {parent : Entry} {above : List Entry} {found : Match}
    (h : matchAlong? buffer above parent = some found) (f : Forest Entry) :
    matchedBelow buffer f found.stop = (f.lineage (parent :: above)).filterMap (matching? buffer) := by
  induction f generalizing parent above found with
  | empty => rfl
  | grow root below after ihb iha =>
    have hroot : matchAlong? buffer (parent :: above) root = root.probe buffer found.stop := by
      rw [matchAlong?, h, Option.bind_some]
    rw [matchedBelow, lineage, List.filterMap_cons, matching?, hroot, List.filterMap_append, iha h]
    cases hprobe : root.probe buffer found.stop with
    | none =>
      rw [filterMap_matching?_eq_nil (hroot.trans hprobe)]
      rfl
    | some next =>
      have hbelow := ihb (hroot.trans hprobe)
      simp only [hbelow, Option.map_some, List.cons_append]

/-- The entries that match below stand in the order of the database. -/
theorem sublist_matchedBelow (buffer : List UInt8) (f : Forest Entry) (parentStop : Nat) :
    ((matchedBelow buffer f parentStop).map Prod.fst).Sublist f.preorder := by
  induction f generalizing parentStop with
  | empty => exact List.Sublist.refl _
  | grow root below after ihb iha =>
    rw [matchedBelow, Forest.preorder, List.map_append]
    -- A root that does not match hides all that lies below it.
    cases root.probe buffer parentStop with
    | none => exact ((iha parentStop).trans (List.sublist_append_right _ _)).cons root
    | some found => exact ((ihb found.stop).append (iha parentStop)).cons_cons root

theorem matched?_eq (tree : Tree Entry) (buffer : List UInt8) :
    matched? tree buffer =
      if (tree.root.probe buffer 0).isSome then some (matching tree buffer) else none := by
  have hroot : matchAlong? buffer [] tree.root = tree.root.probe buffer 0 := rfl
  rw [matched?]
  cases hprobe : tree.root.probe buffer 0 with
  | none => rfl
  | some found =>
    rw [Option.map_some, matchedBelow_eq (hroot.trans hprobe), matching, Tree.lineage,
      List.filterMap_cons, matching?, hroot, hprobe]
    rfl

/-- If the root does not match, no entry does. -/
theorem matching_eq (tree : Tree Entry) (buffer : List UInt8) :
    matching tree buffer = (matched? tree buffer).getD [] := by
  have hroot : matchAlong? buffer [] tree.root = tree.root.probe buffer 0 := rfl
  rw [matched?_eq]
  cases hprobe : tree.root.probe buffer 0 with
  | none =>
    rw [matching, Tree.lineage, List.filterMap_cons, matching?, hroot, hprobe,
      filterMap_matching?_eq_nil (hroot.trans hprobe)]
    rfl
  | some found => rfl

/-! ## The walk -/

namespace Description

/-- What matched entries say together. -/
def ofMatched (entries : List (Entry × Match)) : Description :=
  entries.foldl (fun description p => description.add p.1 p.2.value) {}

/-- **The walk adds the entries that match, in order, to the description it is handed.** -/
theorem walk_eq_foldl (f : Forest Entry) (parentStop : Nat) (description : Description) :
    walk buffer f parentStop description =
      (matchedBelow buffer f parentStop).foldl (fun d p => d.add p.1 p.2.value) description := by
  -- The description differs from entry to entry, so the induction is for all of them.
  induction f generalizing parentStop description with
  | empty => rfl
  | grow root below after ihb iha =>
    rw [walk, iha, matchedBelow, List.foldl_append]
    cases root.probe buffer parentStop with
    | none => rfl
    | some found => simp only [ihb, List.foldl_cons]

end Description

theorem describe?_eq (tree : Tree Entry) (buffer : List UInt8) :
    describe? tree buffer = (matched? tree buffer).map Description.ofMatched := by
  rw [describe?, matched?, Option.map_map]
  refine Option.map_congr fun found _ => ?_
  exact Description.walk_eq_foldl _ _ _

/-! ## What does not matter -/

/-- Two forests that differ at most below entries that do not match. -/
inductive DiffersHidden (buffer : List UInt8) : Nat → Forest Entry → Forest Entry → Prop
  | empty (parentStop : Nat) : DiffersHidden buffer parentStop .empty .empty
  | hidden {parentStop : Nat} {root : Entry} {below other after rest : Forest Entry}
      (hr : root.probe buffer parentStop = none) (ha : DiffersHidden buffer parentStop after rest) :
      DiffersHidden buffer parentStop (.grow root below after) (.grow root other rest)
  | found {parentStop : Nat} {root : Entry} {found : Match} {below other after rest : Forest Entry}
      (hr : root.probe buffer parentStop = some found) (hb : DiffersHidden buffer found.stop below other)
      (ha : DiffersHidden buffer parentStop after rest) :
      DiffersHidden buffer parentStop (.grow root below after) (.grow root other rest)

theorem DiffersHidden.matchedBelow_eq {parentStop : Nat} {f g : Forest Entry}
    (h : DiffersHidden buffer parentStop f g) :
    matchedBelow buffer g parentStop = matchedBelow buffer f parentStop := by
  induction h with
  | empty parentStop => rfl
  | hidden hr _ ih => simp only [matchedBelow, hr, ih]
  | found hr _ _ ihb iha => simp only [matchedBelow, hr, ihb, iha]

/-- A change of entries that keeps where and what they test. -/
structure KeepsTest (change : Entry → Entry) : Prop where
  offset : ∀ entry, (change entry).offset = entry.offset
  type : ∀ entry, (change entry).type = entry.type
  test : ∀ entry, (change entry).test = entry.test

section Changes

variable {change : Entry → Entry}

theorem KeepsTest.probe (h : KeepsTest change) (entry : Entry) (parentStop : Nat) :
    (change entry).probe buffer parentStop = entry.probe buffer parentStop := by
  rw [Entry.probe, Entry.probe, h.offset, h.type, h.test]

theorem KeepsTest.matchedBelow_map (h : KeepsTest change) (f : Forest Entry) (parentStop : Nat) :
    matchedBelow buffer (f.map change) parentStop =
      (matchedBelow buffer f parentStop).map fun p => (change p.1, p.2) := by
  induction f generalizing parentStop with
  | empty => rfl
  | grow root below after ihb iha =>
    rw [map_grow, matchedBelow, matchedBelow, h.probe, iha, List.map_append]
    cases root.probe buffer parentStop with
    | none => rfl
    | some found => simp [ihb]

theorem KeepsTest.matched?_map (h : KeepsTest change) (tree : Tree Entry) :
    matched? (tree.map change) buffer =
      (matched? tree buffer).map (List.map fun p => (change p.1, p.2)) := by
  simp only [matched?, Tree.map, h.probe, h.matchedBelow_map]
  cases tree.root.probe buffer 0 <;> rfl

end Changes

/-! ## What the entries say -/

/-- A space between two texts, if there is something on either side. -/
def spaceBetween (text next : List Char) : List Char :=
  if text ≠ [] ∧ next ≠ [] then [' '] else []

/-- The text that entries spell, one after the other: one case for each kind of message that the last of
them can have. -/
inductive Spells : List (Entry × Match) → List Char → Prop
  | nothing : Spells [] []
  | silent {entries : List (Entry × Match)} {text : List Char} {entry : Entry} {found : Match}
      (h : Spells entries text) (hm : entry.message = "") : Spells (entries ++ [(entry, found)]) text
  | attached {entries : List (Entry × Match)} {text template : List Char} {entry : Entry} {found : Match}
      (h : Spells entries text) (hm : entry.message.toList = '\\' :: 'b' :: template) :
      Spells (entries ++ [(entry, found)]) (text ++ Template.render template found.value)
  | apart {entries : List (Entry × Match)} {text rendered : List Char} {entry : Entry} {found : Match}
      (h : Spells entries text) (hm : entry.message ≠ "") (hb : ¬ ['\\', 'b'] <+: entry.message.toList)
      (hr : rendered = Template.render entry.message.toList found.value) :
      Spells (entries ++ [(entry, found)]) (text ++ spaceBetween text rendered ++ rendered)

namespace Description

variable {description : Description} {entry : Entry} {value : MatchValue}

theorem mime_add : (description.add entry value).mime = entry.mime.or description.mime := by
  rw [add]
  split <;> rfl

theorem text_add_silent (h : entry.message = "") :
    (description.add entry value).text = description.text := by
  simp [add, h]

theorem text_add_attached {template : List Char} (h : entry.message.toList = '\\' :: 'b' :: template) :
    (description.add entry value).text = description.text ++ Template.render template value := by
  simp [add, h]

theorem text_add_apart (hm : entry.message ≠ "") (hb : ¬ ['\\', 'b'] <+: entry.message.toList) :
    (description.add entry value).text =
      description.text ++ spaceBetween description.text (Template.render entry.message.toList value) ++
        Template.render entry.message.toList value := by
  rw [add]
  split
  · rename_i h
    exact absurd (by simpa using h) hm
  · rename_i template h
    exact absurd (h ▸ ⟨template, rfl⟩) hb
  · simp [spaceBetween]

theorem ofMatched_concat (entries : List (Entry × Match)) (p : Entry × Match) :
    ofMatched (entries ++ [p]) = (ofMatched entries).add p.1 p.2.value := by
  rw [ofMatched, List.foldl_append]
  rfl

/-- The MIME type is the last that an entry declares. -/
theorem mime_ofMatched (entries : List (Entry × Match)) :
    (ofMatched entries).mime = (entries.filterMap fun p => p.1.mime).getLast? := by
  induction entries using List.reverseRecOn with
  | nil => rfl
  | append_singleton entries p ih =>
    rw [ofMatched_concat, mime_add, ih, List.filterMap_append, List.getLast?_append]
    cases h : p.1.mime <;> simp [h]

theorem spells_ofMatched (entries : List (Entry × Match)) : Spells entries (ofMatched entries).text := by
  induction entries using List.reverseRecOn with
  | nil => exact .nothing
  | append_singleton entries p ih =>
    rw [ofMatched_concat]
    by_cases hm : p.1.message = ""
    · rw [text_add_silent hm]
      exact .silent ih hm
    · by_cases hb : ['\\', 'b'] <+: p.1.message.toList
      · obtain ⟨template, htemplate⟩ := hb
        rw [text_add_attached htemplate.symm]
        exact .attached ih htemplate.symm
      · rw [text_add_apart hm hb]
        exact .apart ih hm hb rfl

end Description

/-- Entries spell one text. -/
theorem Spells.eq_text {entries : List (Entry × Match)} {text : List Char} (h : Spells entries text) :
    text = (Description.ofMatched entries).text := by
  induction h with
  | nothing => rfl
  | silent _ hm ih => rw [Description.ofMatched_concat, Description.text_add_silent hm, ih]
  | attached _ hm ih => rw [Description.ofMatched_concat, Description.text_add_attached hm, ih]
  | apart _ hm hb hr ih => rw [Description.ofMatched_concat, Description.text_add_apart hm hb, ih, hr]

theorem Description.eq_ofMatched_iff {description : Description} {entries : List (Entry × Match)} :
    description = ofMatched entries ↔
      description.mime = (entries.filterMap fun p => p.1.mime).getLast? ∧
        Spells entries description.text := by
  constructor
  · rintro rfl
    exact ⟨mime_ofMatched entries, spells_ofMatched entries⟩
  · rintro ⟨hmime, htext⟩
    rw [← mime_ofMatched] at hmime
    obtain ⟨text, mime⟩ := description
    exact congrArg₂ Description.mk htext.eq_text hmime

/-! ## The whole description -/

/-- **A signature describes a buffer if its root matches, by what its entries that match say in order.**
An entry matches if the one above it does and it matches from there. -/
theorem describe?_matched (tree : Tree Entry) (buffer : List UInt8) :
    ((describe? tree buffer).isSome = (tree.root.probe buffer 0).isSome) ∧
    (∀ description, describe? tree buffer = some description ↔
      (tree.root.probe buffer 0).isSome ∧
        description.mime = ((matching tree buffer).filterMap fun p => p.1.mime).getLast? ∧
        Spells (matching tree buffer) description.text) ∧
    -- What stands below an entry that does not match does not matter.
    (∀ other : Forest Entry,
      (∀ found, tree.root.probe buffer 0 = some found →
        DiffersHidden buffer found.stop tree.below other) →
      describe? ⟨tree.root, other⟩ buffer = describe? tree buffer) ∧
    -- Messages and MIME types have no say in which entries match, and where.
    ∀ change : Entry → Entry, KeepsTest change →
      matching (tree.map change) buffer = (matching tree buffer).map fun p => (change p.1, p.2) := by
  refine ⟨?_, ?_, ?_, ?_⟩
  · rw [describe?]
    simp
  · intro description
    rw [describe?_eq, matched?_eq, ← Description.eq_ofMatched_iff]
    cases tree.root.probe buffer 0 <;> simp [eq_comm]
  · intro other hother
    rw [describe?_eq, describe?_eq, matched?, matched?]
    cases hprobe : tree.root.probe buffer 0 with
    | none => rfl
    | some found => simp only [Option.map_some, (hother found hprobe).matchedBelow_eq]
  · intro change hchange
    rw [matching_eq, matching_eq, hchange.matched?_map]
    cases matched? tree buffer <;> rfl

end Hallmark.Signature
