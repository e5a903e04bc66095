import Hallmark.Proofs.Forest.Mapping
import Hallmark.Proofs.Signature.Writing

/-!
# `Hallmark/Proofs/Signature/RoundTrip.lean` — reading undoes writing

An entry is written as one entry line and one line for each directive that it needs; a forest is
written entry by entry in pre-order. Levels are the only trace that the shape of the forest leaves in
the text, and they are enough: what is read from the lines of a forest, on top of a draft whose right
edge reaches its roots, is that forest grafted there (`addLines_forestLines`). Main statement: a forest
comes back from the text it is written as, with the numbers of the lines it is written on
(`readForest_writeForest`).
-/

set_option autoImplicit false

namespace Hallmark.Signature

open Forest

/-! ## Writing entries -/

/-- A text that can end a line, and comes back when blanks around it are trimmed. -/
structure IsPhrase (text : List Char) : Prop where
  noFeed : '\n' ∉ text
  trimmed : Text.IsTrimmed text

instance (text : List Char) : Decidable (IsPhrase text) :=
  decidable_of_iff ('\n' ∉ text ∧ Text.IsTrimmed text)
    ⟨fun h => ⟨h.1, h.2⟩, fun h => ⟨h.noFeed, h.trimmed⟩⟩

/-- An adjustment: its operator, and its amount in decimal. -/
def Adjustment.written : Adjustment → List Char
  | .add amount => '+' :: Number.decimal amount.toInt
  | .sub amount => '-' :: Number.decimal amount.toInt
  | .mul amount => '*' :: Number.decimal amount.toInt
  | .div amount => '/' :: Number.decimal amount.toInt

/-- A space or a tab parts a directive from its argument. -/
def IsGap (gap : Char) : Prop := gap = ' ' ∨ gap = '\t'

/-- A directive, without the `!:` in front of it. -/
def Directive.written (gap : Char) : Directive → List Char
  | .mime type => "mime".toList ++ gap :: type.toList
  | .strength adjustment => "strength".toList ++ gap :: adjustment.written
  | .unreported => []

namespace Entry

/-- An entry that can be written: each of its parts can, and they fit together. -/
structure IsWritable (entry : Entry) : Prop where
  offset : entry.offset.StandsAt entry.level
  type : entry.type.IsNamed
  test : entry.test.Suits entry.type
  message : IsPhrase entry.message.toList
  mime : ∀ type ∈ entry.mime, type ≠ "" ∧ IsPhrase type.toList

instance (entry : Entry) : Decidable entry.IsWritable :=
  decidable_of_iff
    (entry.offset.StandsAt entry.level ∧ entry.type.IsNamed ∧ entry.test.Suits entry.type ∧
      IsPhrase entry.message.toList ∧ ∀ type ∈ entry.mime, type ≠ "" ∧ IsPhrase type.toList)
    ⟨fun h => ⟨h.1, h.2.1, h.2.2.1, h.2.2.2.1, h.2.2.2.2⟩,
      fun h => ⟨h.offset, h.type, h.test, h.message, h.mime⟩⟩

/-- The entry line, without its message. -/
def front (entry : Entry) : List Char :=
  List.replicate entry.level '>' ++ entry.offset.written ++ '\t' :: entry.type.written ++
    '\t' :: entry.test.written ++ ['\t']

/-- What the entry line of an entry does not say. -/
def directives (entry : Entry) : List Directive :=
  entry.mime.toList.map .mime ++ entry.adjustment.toList.map .strength

/-- The lines of an entry: its entry line, and the directives about it. -/
def lines (gap : Char) (entry : Entry) : List (List Char) :=
  (entry.front ++ entry.message.toList) ::
    entry.directives.map fun directive => '!' :: ':' :: directive.written gap

end Entry

/-! ## Writing forests -/

/-- The lines of a forest, entry by entry. -/
def forestLines (gap : Char) (forest : Forest Entry) : List (List Char) :=
  forest.preorder.flatMap (Entry.lines gap)

def writeForest (gap : Char) (forest : Forest Entry) : List Char :=
  Text.unlines (forestLines gap forest)

def lineCount (forest : Forest Entry) : Nat :=
  (forest.preorder.map fun entry => 1 + entry.directives.length).sum

/-- A forest with the numbers of the lines that its entries stand on, the first of which is `number`. -/
def numberForest (number : Nat) : Forest Entry → Forest Entry
  | empty => empty
  | grow entry below after =>
    let next := number + (1 + entry.directives.length)
    grow (entry.numbered number) (numberForest next below)
      (numberForest (next + lineCount below) after)

/-- A forest that can be written: levels are depths, and every entry can be written. -/
structure IsWritable (forest : Forest Entry) : Prop where
  placed : ∀ p ∈ forest.lineage [], p.2.level = p.1.length
  entries : ∀ entry ∈ forest.preorder, entry.IsWritable

instance (forest : Forest Entry) : Decidable (IsWritable forest) :=
  decidable_of_iff ((∀ p ∈ forest.lineage [], p.2.level = p.1.length) ∧
      ∀ entry ∈ forest.preorder, entry.IsWritable)
    ⟨fun h => ⟨h.1, h.2⟩, fun h => ⟨h.placed, h.entries⟩⟩

theorem Entry.length_lines (gap : Char) (entry : Entry) :
    (entry.lines gap).length = 1 + entry.directives.length := by
  rw [lines, List.length_cons, List.length_map, Nat.add_comm]

theorem length_forestLines (gap : Char) (forest : Forest Entry) :
    (forestLines gap forest).length = lineCount forest := by
  simp only [forestLines, lineCount, List.length_flatMap, Entry.length_lines]

variable {gap : Char}

/-! ## Reading an entry line -/

/-- The level and the first token stay together; the tabs take the rest apart. -/
theorem Entry.front_append (entry : Entry) (rest : List Char) :
    entry.front ++ rest = List.replicate entry.level '>' ++ (entry.offset.written ++
      '\t' :: (entry.type.written ++ '\t' :: (entry.test.written ++ '\t' :: rest))) := by
  simp [front, List.append_assoc]

theorem Entry.takeWhile_front (entry : Entry) (rest : List Char) :
    (entry.front ++ rest).takeWhile (· == '>') = List.replicate entry.level '>' := by
  have hstop : ∀ more : List Char, (entry.offset.written ++ more).takeWhile (· == '>') = [] := by
    intro more
    cases hw : entry.offset.written with
    | nil => exact absurd hw entry.offset.isToken_written.nonempty
    | cons c cs =>
      have hc : c ≠ '>' := by
        rintro rfl
        have hm : '>' ∈ entry.offset.written := hw ▸ List.mem_cons_self
        rcases Offset.of_mem_written hm with h | h | h
        · exact absurd h (by decide)
        · exact absurd h (by decide)
        · exact absurd h (by decide)
      simp [hc]
  rw [front_append, List.takeWhile_append_of_pos (by simp), hstop, List.append_nil]

/-- An entry line gives back what it was written for; directives are not part of it. -/
theorem Entry.read_front {entry : Entry} (h : entry.IsWritable) (number : Nat) :
    Entry.read number (entry.front ++ entry.message.toList) =
      .ok (entry.numbered number).bare := by
  apply Entry.read_eq_ok_iff.2
  have hlevel : ((entry.front ++ entry.message.toList).takeWhile (· == '>')).length = entry.level := by
    rw [takeWhile_front, List.length_replicate]
  have hdrop : (entry.front ++ entry.message.toList).drop entry.level = entry.offset.written ++
      '\t' :: (entry.type.written ++ '\t' :: (entry.test.written ++ '\t' :: entry.message.toList)) := by
    rw [front_append, List.drop_append_of_le_length (by simp)]
    simp
  refine ⟨entry.offset.written, entry.type.written, entry.test.written,
    '\t' :: (entry.type.written ++ '\t' :: (entry.test.written ++ '\t' :: entry.message.toList)),
    '\t' :: (entry.test.written ++ '\t' :: entry.message.toList), '\t' :: entry.message.toList,
    ?_, ?_, ?_, ?_, ?_, ?_, hlevel.symm, rfl, ?_, rfl, rfl⟩
  · rw [hlevel, hdrop]
    exact Token.next?_append_tab _ entry.offset.isToken_written
  · rw [Token.next?_tab]
    exact Token.next?_append_tab _ entry.type.isToken_written
  · rw [Token.next?_tab]
    exact Token.next?_append_tab _ entry.test.isToken_written
  · rw [hlevel]
    exact Offset.read_written number h.offset
  · exact ValueType.read_written number h.type
  · exact Test.read_written number h.test
  · rw [Text.trim_cons _ rfl, Text.trim_eq_self h.message.trimmed, String.ofList_toList]
    rfl

/-- An entry line starts like one: neither a comment nor a directive starts with its first character. -/
theorem Entry.first_front (entry : Entry) (rest : List Char) :
    ∃ c cs, entry.front ++ rest = c :: cs ∧ Text.isBlank c = false ∧ c ≠ '#' ∧ c ≠ '!' := by
  rw [front_append]
  cases entry.level with
  | succ level => exact ⟨'>', _, rfl, rfl, by decide, by decide⟩
  | zero =>
    cases hw : entry.offset.written with
    | nil => exact absurd hw entry.offset.isToken_written.nonempty
    | cons c cs =>
      have hc : c.isDigit = true ∨ c = '-' ∨ c = '&' :=
        Offset.of_mem_written (hw ▸ List.mem_cons_self)
      refine ⟨c, _, rfl, entry.offset.isToken_written.first c (by simp [hw]), ?_, ?_⟩
      · rintro rfl
        exact absurd hc (by decide)
      · rintro rfl
        exact absurd hc (by decide)

theorem Entry.isEntryLine_front (entry : Entry) (rest : List Char) :
    isEntryLine (entry.front ++ rest) = true ∧
      Text.trimStart (entry.front ++ rest) = entry.front ++ rest := by
  obtain ⟨c, cs, hline, hblank, hcomment, hdirective⟩ := entry.first_front rest
  have htrim : Text.trimStart (c :: cs) = c :: cs := Text.trimStart_eq_self (by simpa using hblank)
  rw [hline]
  refine ⟨?_, htrim⟩
  simp [isEntryLine, directiveOf?, htrim, hcomment, Text.stripStart?, Ne.symm hdirective]

/-! ## Reading the lines of an entry -/

theorem Adjustment.read_decimal (number : Nat) (operator : Char) (amount : Int64) :
    Adjustment.read number (operator :: Number.decimal amount.toInt) =
      orElse (Adjustment.of? operator amount) (.line number (.invalidStrengthOperator operator)) := by
  have htrimmed : Text.IsTrimmed (Number.decimal amount.toInt) :=
    Text.isTrimmed_of_forall fun c hc => Token.isBlank_of_isPlain (isPlain_of_mem_decimal hc)
  rw [Adjustment.read, Text.trim_eq_self htrimmed, Number.literal?_decimal]
  rfl

theorem Adjustment.read_written (number : Nat) (adjustment : Adjustment) :
    Adjustment.read number adjustment.written = .ok adjustment := by
  cases adjustment with
  | add amount => exact read_decimal number '+' amount
  | sub amount => exact read_decimal number '-' amount
  | mul amount => exact read_decimal number '*' amount
  | div amount => exact read_decimal number '/' amount

theorem Adjustment.isPhrase_written (adjustment : Adjustment) : IsPhrase adjustment.written := by
  have hplain : ∀ c ∈ adjustment.written, Token.isPlain c = true := by
    cases adjustment with
    | add | sub | mul | div => exact List.forall_mem_cons.2 ⟨rfl, fun c => isPlain_of_mem_decimal⟩
  exact ⟨fun hm => absurd (hplain _ hm) (by decide),
    Text.isTrimmed_of_forall fun c hc => Token.isBlank_of_isPlain (hplain c hc)⟩

/-- A directive that can be written: a MIME type is there, and comes back as it is. -/
def Directive.IsWritable : Directive → Prop
  | .mime type => type ≠ "" ∧ IsPhrase type.toList
  | .strength _ | .unreported => True

theorem IsGap.isBlank (hg : IsGap gap) : Text.isBlank gap = true := by
  rcases hg with rfl | rfl <;> rfl

/-- The blank after the name of a directive is not part of its argument. -/
theorem Directive.parts_append {name argument : List Char} (hg : IsGap gap)
    (hn : name.all (!Text.isBlank ·) = true) (ha : Text.IsTrimmed argument) :
    parts (name ++ gap :: argument) = (name, argument) := by
  have hname := List.all_eq_true.1 hn
  rw [parts, List.takeWhile_append_of_pos hname, List.dropWhile_append_of_pos hname,
    List.takeWhile_cons_of_neg (by simp [hg.isBlank]),
    List.dropWhile_cons_of_neg (by simp [hg.isBlank]), Text.trim_cons _ hg.isBlank,
    Text.trim_eq_self ha, List.append_nil]

theorem Directive.read_written {directive : Directive} (hg : IsGap gap) (number : Nat)
    (h : directive.IsWritable) : Directive.read number (directive.written gap) = .ok directive := by
  cases directive with
  | mime type =>
    obtain ⟨hne, hphrase⟩ := h
    have hempty : type.toList.isEmpty = false := by
      simpa using hne
    have hparts : parts (written gap (.mime type)) = ("mime".toList, type.toList) :=
      parts_append hg (by decide) hphrase.trimmed
    unfold Directive.read
    simp only [hparts, String.ofList_toList, hempty]
    rfl
  | strength adjustment =>
    have hparts : parts (written gap (.strength adjustment)) =
        ("strength".toList, adjustment.written) :=
      parts_append hg (by decide) adjustment.isPhrase_written.trimmed
    unfold Directive.read
    simp only [hparts, String.ofList_toList, Adjustment.read_written]
    rfl
  | unreported => rfl

theorem directiveOf?_written (gap : Char) (directive : Directive) :
    directiveOf? ('!' :: ':' :: directive.written gap) = some (directive.written gap) := by
  rw [directiveOf?_eq_some_iff]
  exact Text.trimStart_eq_self (by simp [Text.isBlank])

/-- Directives that are written one after the other change the last entry one after the other. -/
theorem Draft.addLines_directives (hg : IsGap gap) {directives : List Directive} (number : Nat)
    {forest : Forest Entry} {last : Entry} (hle : last.level ≤ forest.edge.length)
    (h : ∀ directive ∈ directives, directive.IsWritable) :
    Draft.addLines ⟨forest.graft last.level (leaf last), some last.level⟩ number
        (directives.map fun directive => '!' :: ':' :: directive.written gap) =
      .ok ⟨forest.graft last.level (leaf (directives.foldl (fun e d => d.apply e) last)),
        some last.level⟩ := by
  induction directives generalizing number last with
  | nil => rfl
  | cons directive rest ih =>
    have hstep : Draft.addLine ⟨forest.graft last.level (leaf last), some last.level⟩ number
        ('!' :: ':' :: directive.written gap) = _ :=
      Draft.addLine_directive_last hle (directiveOf?_written gap directive)
    rw [Directive.read_written hg number (h directive List.mem_cons_self)] at hstep
    have hlevel : (directive.apply last).level = last.level := directive.level_apply last
    have hrest := @ih (number + 1) (directive.apply last) (hlevel ▸ hle)
      fun d hd => h d (List.mem_cons_of_mem directive hd)
    rw [hlevel] at hrest
    rw [List.map_cons, Draft.addLines, hstep]
    exact hrest

theorem Entry.foldl_directives (entry : Entry) :
    entry.directives.foldl (fun e directive => directive.apply e) entry.bare = entry := by
  obtain ⟨level, line, offset, type, test, message, mime, adjustment⟩ := entry
  cases mime <;> cases adjustment <;> rfl

theorem Entry.IsWritable.directives {entry : Entry} (h : entry.IsWritable) :
    ∀ directive ∈ entry.directives, directive.IsWritable := by
  intro directive hd
  rcases List.mem_append.1 hd with hd | hd
  · obtain ⟨type, hm, rfl⟩ := List.mem_map.1 hd
    exact h.mime type (Option.mem_toList.1 hm)
  · obtain ⟨adjustment, -, rfl⟩ := List.mem_map.1 hd
    exact trivial

/-- The lines of an entry add it as a leaf. -/
theorem Draft.addLines_lines (hg : IsGap gap) {draft : Draft} {entry : Entry} (h : entry.IsWritable)
    (number : Nat) (hle : entry.level ≤ draft.forest.edge.length) :
    draft.addLines number (entry.lines gap) =
      .ok ⟨draft.forest.graft entry.level (leaf (entry.numbered number)), some entry.level⟩ := by
  obtain ⟨hentry, htrim⟩ := entry.isEntryLine_front entry.message.toList
  have hread : Entry.read number (Text.trimStart (entry.front ++ entry.message.toList)) =
      .ok (entry.numbered number).bare := by
    rw [htrim]
    exact Entry.read_front h number
  have hrest := @Draft.addLines_directives gap hg (entry.numbered number).directives (number + 1)
    draft.forest (entry.numbered number).bare hle h.directives
  rw [Entry.foldl_directives] at hrest
  rw [Entry.lines, Draft.addLines, Draft.addLine_attached hentry hread hle]
  exact hrest

/-! ## Reading the lines of a forest -/

theorem forestLines_grow (gap : Char) (entry : Entry) (below after : Forest Entry) :
    forestLines gap (grow entry below after) =
      entry.lines gap ++ (forestLines gap below ++ forestLines gap after) := by
  simp [forestLines, preorder]

/-- **The lines of a forest add it where the right edge reaches its roots.** -/
theorem Draft.addLines_forestLines (hg : IsGap gap) {forest : Forest Entry} {above : List Entry}
    (hplaced : ∀ p ∈ forest.lineage above, p.2.level = p.1.length)
    (hentries : ∀ entry ∈ forest.preorder, entry.IsWritable) (draft : Draft) (number : Nat)
    (hle : above.length ≤ draft.forest.edge.length) :
    ∃ last, draft.addLines number (forestLines gap forest) =
      .ok ⟨draft.forest.graft above.length (numberForest number forest), last⟩ := by
  induction forest generalizing above draft number with
  | empty =>
    refine ⟨draft.lastLevel, ?_⟩
    rw [numberForest, graft_empty]
    rfl
  | grow entry below after ihb iha =>
    have hlevel : entry.level = above.length := hplaced (above, entry) List.mem_cons_self
    have hroot := Draft.addLines_lines hg (hentries entry List.mem_cons_self) number (hlevel ▸ hle)
    rw [hlevel] at hroot
    -- The entries below find their parent at the end of the right edge.
    have hbelow := @ihb (entry :: above)
      (fun p hp => hplaced p (List.mem_cons_of_mem _ (List.mem_append_left _ hp)))
      (fun e he => hentries e (List.mem_cons_of_mem _ (List.mem_append_left _ he)))
      ⟨draft.forest.graft above.length (leaf (entry.numbered number)), some above.length⟩
      (number + (1 + entry.directives.length))
      (by simp [leaf, edge_graft _ _ _ hle, Nat.min_eq_left hle])
    obtain ⟨last, hbelow⟩ := hbelow
    rw [List.length_cons, graft_below _ _ hle] at hbelow
    -- The entries after it stand on its level again.
    have hafter := @iha above
      (fun p hp => hplaced p (List.mem_cons_of_mem _ (List.mem_append_right _ hp)))
      (fun e he => hentries e (List.mem_cons_of_mem _ (List.mem_append_right _ he)))
      ⟨draft.forest.graft above.length
        (grow (entry.numbered number) (numberForest (number + (1 + entry.directives.length)) below)
          empty), last⟩
      (number + (1 + entry.directives.length) + lineCount below)
      (by simp [edge_graft _ _ _ hle, Nat.min_eq_left hle])
    obtain ⟨final, hafter⟩ := hafter
    rw [graft_graft _ _ hle] at hafter
    refine ⟨final, ?_⟩
    rw [forestLines_grow, Draft.addLines_append, hroot, Entry.length_lines]
    simp only [Except.bind]
    rw [Draft.addLines_append, hbelow, length_forestLines]
    exact hafter

/-! ## Whole texts -/

theorem IsPhrase.isLine_append {front phrase : List Char} (h : IsPhrase phrase)
    (hfeed : '\n' ∉ front) (hreturn : front.getLast? ≠ some '\r') : Text.IsLine (front ++ phrase) where
  noFeed := by
    rw [List.mem_append]
    exact fun hm => hm.elim hfeed h.noFeed
  noReturn := by
    rw [List.getLast?_append]
    cases hlast : phrase.getLast? with
    | none => exact hreturn
    | some c =>
      rintro hc
      obtain rfl : c = '\r' := Option.some.inj hc
      exact absurd (h.trimmed.last _ hlast) (by decide)

theorem Directive.isLine_append {name phrase : List Char} (hg : IsGap gap) (hn : '\n' ∉ name)
    (h : IsPhrase phrase) : Text.IsLine ('!' :: ':' :: (name ++ gap :: phrase)) := by
  have hfeed : '\n' ∉ '!' :: ':' :: name ++ [gap] := by
    rcases hg with rfl | rfl <;> simp [hn]
  have hreturn : ('!' :: ':' :: name ++ [gap]).getLast? ≠ some '\r' := by
    rw [List.getLast?_concat]
    rcases hg with rfl | rfl <;> decide
  have hline := h.isLine_append hfeed hreturn
  rw [List.append_assoc] at hline
  exact hline

theorem Directive.isLine_written {directive : Directive} (hg : IsGap gap) (h : directive.IsWritable) :
    Text.IsLine ('!' :: ':' :: directive.written gap) := by
  cases directive with
  | mime type => exact isLine_append hg (by decide) h.2
  | strength adjustment => exact isLine_append hg (by decide) adjustment.isPhrase_written
  | unreported =>
    have hnone : written gap .unreported = [] := rfl
    rw [hnone]
    exact ⟨by decide, by decide⟩

theorem Entry.isLine_lines (hg : IsGap gap) {entry : Entry} (h : entry.IsWritable) :
    ∀ line ∈ entry.lines gap, Text.IsLine line := by
  intro line hl
  rcases List.mem_cons.1 hl with rfl | hl
  · apply h.message.isLine_append
    · have hoffset := entry.offset.isToken_written.noFeed
      have htype := entry.type.isToken_written.noFeed
      have htest := entry.test.isToken_written.noFeed
      simp [front, hoffset, htype, htest]
    · rw [front, List.getLast?_concat]
      decide
  · obtain ⟨directive, hd, rfl⟩ := List.mem_map.1 hl
    exact Directive.isLine_written hg (h.directives directive hd)

theorem lines_writeForest (hg : IsGap gap) {forest : Forest Entry} (h : IsWritable forest) :
    Text.lines (writeForest gap forest) = forestLines gap forest := by
  apply Text.lines_unlines
  intro line hl
  obtain ⟨entry, he, hm⟩ := List.mem_flatMap.1 hl
  exact Entry.isLine_lines hg (h.entries entry he) line hm

theorem map_numbered_numberForest (number first : Nat) (forest : Forest Entry) :
    (numberForest first forest).map (Entry.numbered number) = forest.map (Entry.numbered number) := by
  induction forest generalizing first with
  | empty => rfl
  | grow entry below after ihb iha =>
    rw [numberForest, Forest.map, Forest.map, ihb, iha]
    rfl

/-- **Reading undoes writing**: a forest comes back with every field of every entry, apart from the
numbers of the lines, which are now those of its text. -/
theorem readForest_writeForest (hg : IsGap gap) {forest : Forest Entry} (h : IsWritable forest) :
    readForest (writeForest gap forest) = .ok (numberForest 1 forest) ∧
      (numberForest 1 forest).map (Entry.numbered 0) = forest.map (Entry.numbered 0) := by
  refine ⟨?_, map_numbered_numberForest 0 1 forest⟩
  obtain ⟨last, hdraft⟩ := Draft.addLines_forestLines hg h.placed h.entries {} 1 (Nat.zero_le _)
  rw [readForest, lines_writeForest hg h, hdraft]
  rfl

/-- A masked number with both directives, an entry below it, and one after it with nothing to say. -/
theorem readForest_writeForest_below :
    ∃ forest, IsWritable forest ∧
      writeForest '\t' forest =
        ("0\tubelong&4294967040\t=2135247872\tELF\n!:mime\tapplication/x-elf\n!:strength\t*-3\n" ++
          ">&-5\tsearch/256/cw\t!\\x20\\x0a\\xff\ta b\n18446744073709551615\tstring\tx\t\n").toList ∧
      readForest (writeForest '\t' forest) = .ok (numberForest 1 forest) ∧
      (numberForest 1 forest).preorder.map Entry.line = [1, 4, 5] := by
  have h : IsWritable
      (grow ⟨0, 0, .absolute 0, .number ⟨4, .big, false, some 0xFFFFFF00⟩, .number .equal 0x7F454C00,
          "ELF", some "application/x-elf", some (.mul (-3))⟩
        (leaf ⟨1, 0, .relative (-5), .search 256 ⟨true, false, true⟩, .text .notEqual [0x20, 0x0A, 0xFF],
          "a b", none, none⟩)
        (leaf ⟨0, 0, .absolute 0xFFFFFFFFFFFFFFFF, .text {}, .text .any [], "", none, none⟩)) := by
    decide +kernel
  exact ⟨_, h, by decide +kernel, (readForest_writeForest (.inr rfl) h).1, by decide +kernel⟩

end Hallmark.Signature
