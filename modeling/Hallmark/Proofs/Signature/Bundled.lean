import Hallmark.Proofs.Signature.Leading
import Hallmark.Proofs.Text.Splitting
import Hallmark.Signature.Builtin

/-!
# `Hallmark/Proofs/Signature/Bundled.lean` — magics in the bundled database

A buffer that starts with the magic of a format is announced as that format, whatever follows, unless a
signature that is tried earlier matches it. The magic rules out all of these but one, which looks far behind
it: the mark of tape archives. The mark is tried after the magics of images, documents and scripts, and
before those of executables and compressed data. Main statement: `builtin_announces`.
-/

set_option autoImplicit false

namespace Hallmark.Signature

/-! ## Magics -/

/-- The first bytes of a format, and what is to be said of a buffer that starts with them. -/
structure Magic where
  bytes : List UInt8
  message : String
  mime : String
deriving DecidableEq, Repr

/-- The magics that decide whatever follows. -/
def strongMagics : List Magic :=
  [⟨[0x89, 0x50, 0x4E, 0x47, 0x0D, 0x0A, 0x1A, 0x0A], "PNG image data", "image/png"⟩,
   -- `%PDF-`
   ⟨[0x25, 0x50, 0x44, 0x46, 0x2D], "PDF document", "application/pdf"⟩,
   -- `#!/bin/sh`
   ⟨[0x23, 0x21, 0x2F, 0x62, 0x69, 0x6E, 0x2F, 0x73, 0x68], "POSIX shell script text executable",
    "text/x-shellscript"⟩]

/-- The magics that the mark of a tape archive outweighs. -/
def weakMagics : List Magic :=
  [⟨[0x7F, 0x45, 0x4C, 0x46], "ELF", "application/x-executable"⟩,
   ⟨[0x1F, 0x8B], "gzip compressed data", "application/gzip"⟩]

/-- `ustar` stands where a tape archive has it. -/
def IsTape (buffer : List UInt8) : Prop :=
  (buffer.drop 257).take 5 = [0x75, 0x73, 0x74, 0x61, 0x72]

instance (buffer : List UInt8) : Decidable (IsTape buffer) :=
  inferInstanceAs (Decidable (_ = _))

/-! ## Signatures of magics -/

/-- The root looks for the mark of a tape archive. -/
def looksForTape (tree : Tree Entry) : Bool :=
  tree.root.offset == .absolute 257 && tree.root.type == .text {} &&
    tree.root.test == .text .equal [0x75, 0x73, 0x74, 0x61, 0x72]

theorem isSome_probe_iff_isTape {tree : Tree Entry} (h : looksForTape tree = true)
    (buffer : List UInt8) : (tree.root.probe buffer 0).isSome ↔ IsTape buffer := by
  simp only [looksForTape, Bool.and_eq_true, beq_iff_eq] at h
  obtain ⟨⟨hoffset, htype⟩, htest⟩ := h
  have hresolve : tree.root.offset.resolve 0 = some 257 := by rw [hoffset]; rfl
  have hpasses : TextOp.equal.Passes {} [0x75, 0x73, 0x74, 0x61, 0x72] buffer 257 ↔
      257 + 5 ≤ buffer.length ∧ IsTape buffer := passes_equal_iff rfl
  rw [Entry.probe_text hresolve htype htest]
  refine hpasses.trans ⟨And.right, fun htape => ⟨?_, htape⟩⟩
  have hlength := congrArg List.length htape
  rw [List.length_take, List.length_drop] at hlength
  simp only [List.length_cons, List.length_nil] at hlength
  omega

instance (test : Test) : Decidable (∀ pattern, test ≠ .text .notEqual pattern) :=
  match test with
  | .text .notEqual pattern => isFalse fun h => h pattern rfl
  | .text .equal _ | .text .less _ | .text .greater _ | .text .any _ | .number _ _ => isTrue nofun

/-- The signature matches the magic, and no matter what follows, and says what is to be said of it. -/
structure IsSignatureOf (magic : Magic) (tree : Tree Entry) : Prop where
  found : (tree.root.probe magic.bytes 0).isSome
  kept : ∀ pattern, tree.root.test ≠ .text .notEqual pattern
  speaks : SpeaksAtRoot tree
  message : tree.root.message = magic.message
  mime : tree.root.mime = some magic.mime

instance (magic : Magic) (tree : Tree Entry) : Decidable (IsSignatureOf magic tree) :=
  decidable_of_iff
    ((tree.root.probe magic.bytes 0).isSome ∧ (∀ pattern, tree.root.test ≠ .text .notEqual pattern) ∧
      SpeaksAtRoot tree ∧ tree.root.message = magic.message ∧ tree.root.mime = some magic.mime)
    ⟨fun h => ⟨h.1, h.2.1, h.2.2.1, h.2.2.2.1, h.2.2.2.2⟩,
      fun h => ⟨h.found, h.kept, h.speaks, h.message, h.mime⟩⟩

/-! ## Databases that decide -/

/-- Of the candidates for a magic, the first that does not look for a tape archive is the signature of the
magic. -/
def Database.Decides (database : Database) (magic : Magic) : Prop :=
  ∃ tree ∈ ((database.candidates magic.bytes).dropWhile looksForTape).head?,
    IsSignatureOf magic tree

/-- The first candidate for a magic looks for a tape archive, and says so. -/
def Database.Yields (database : Database) (magic : Magic) : Prop :=
  ∃ tree ∈ (database.candidates magic.bytes).head?, looksForTape tree = true ∧ SpeaksAtRoot tree ∧
    tree.root.message = "POSIX tar archive" ∧ tree.root.mime = some "application/x-tar"

/-- The first candidate for a magic does not look for a tape archive. -/
def Database.Insists (database : Database) (magic : Magic) : Prop :=
  (database.candidates magic.bytes).takeWhile looksForTape = []

instance (database : Database) (magic : Magic) : Decidable (database.Decides magic) :=
  inferInstanceAs (Decidable (∃ _ ∈ _, _))

instance (database : Database) (magic : Magic) : Decidable (database.Yields magic) :=
  inferInstanceAs (Decidable (∃ _ ∈ _, _))

instance (database : Database) (magic : Magic) : Decidable (database.Insists magic) :=
  inferInstanceAs (Decidable (_ = _))

section Decisions

variable {database : Database} {magic : Magic} {rest : List UInt8}

theorem Database.Decides.announces (h : database.Decides magic)
    (hahead : ∀ tree ∈ (database.candidates magic.bytes).takeWhile looksForTape,
      tree.root.probe (magic.bytes ++ rest) 0 = none) :
    Announces (database.identify (magic.bytes ++ rest)) magic.message (some magic.mime) := by
  obtain ⟨tree, hhead, hsignature⟩ := h
  obtain ⟨after, hafter⟩ := List.head?_eq_some_iff.1 hhead
  have hcandidates : database.candidates magic.bytes =
      (database.candidates magic.bytes).takeWhile looksForTape ++
        (database.candidates magic.bytes).dropWhile looksForTape :=
    List.takeWhile_append_dropWhile.symm
  rw [hafter] at hcandidates
  have hroot := Entry.isSome_probe_append hsignature.kept hsignature.found rest
  rw [← hsignature.message, ← hsignature.mime]
  exact Database.announces hcandidates hahead hroot hsignature.speaks

theorem Database.Decides.announces_of_not_isTape (h : database.Decides magic)
    (htape : ¬ IsTape (magic.bytes ++ rest)) :
    Announces (database.identify (magic.bytes ++ rest)) magic.message (some magic.mime) := by
  refine h.announces fun tree htree => ?_
  have hmark : looksForTape tree = true := List.mem_takeWhile_imp htree
  rw [← Option.not_isSome_iff_eq_none, isSome_probe_iff_isTape hmark]
  exact htape

theorem Database.Yields.announces (h : database.Yields magic) (htape : IsTape (magic.bytes ++ rest)) :
    Announces (database.identify (magic.bytes ++ rest)) "POSIX tar archive"
      (some "application/x-tar") := by
  obtain ⟨tree, hhead, hmark, hspeaks, hmessage, hmime⟩ := h
  obtain ⟨after, hcandidates⟩ := List.head?_eq_some_iff.1 hhead
  have hroot := (isSome_probe_iff_isTape hmark _).2 htape
  rw [← hmessage, ← hmime]
  rw [← List.nil_append (tree :: after)] at hcandidates
  exact Database.announces hcandidates (fun _ hmem => absurd hmem List.not_mem_nil) hroot hspeaks

end Decisions

/-! ## The bundled database -/

/-- The characters of lines that are literals. -/
theorem map_toList_cons {line : String} {lines : List String} {cs : List Char} {css : List (List Char)}
    (h : line = String.ofList cs) (hrest : lines.map String.toList = css) :
    (line :: lines).map String.toList = cs :: css := by
  rw [List.map_cons, hrest, h, String.toList_ofList]

theorem builtinText_eq : builtinText = Text.unlines (builtinLines.map String.toList) := by
  simp only [builtinText, Text.unlines, List.flatMap_map]

/-- The bundled database can be read, and its signatures rank as they should. -/
theorem exists_builtin :
    ∃ database, Database.builtin = .ok database ∧
      (∀ magic ∈ strongMagics, database.Decides magic ∧ database.Insists magic) ∧
      ∀ magic ∈ weakMagics, database.Decides magic ∧ database.Yields magic := by
  -- The characters of a literal are known at once, but it takes long to decode them from its bytes.
  have hlines : ∃ lines, builtinLines.map String.toList = lines ∧
      (Database.read (Text.unlines lines)).map (fun database => decide (
        (∀ magic ∈ strongMagics, database.Decides magic ∧ database.Insists magic) ∧
        ∀ magic ∈ weakMagics, database.Decides magic ∧ database.Yields magic)) = .ok true := by
    apply Exists.intro
    apply And.intro
    · repeat' first | exact List.map_nil | apply map_toList_cons rfl
    · decide +kernel
  obtain ⟨lines, hlines, hdecides⟩ := hlines
  obtain ⟨database, hread, hdecides⟩ := map_eq_ok_iff.1 hdecides
  refine ⟨database, ?_, of_decide_eq_true hdecides⟩
  rw [Database.builtin, builtinText_eq, hlines, hread]

/-- **In the bundled database the leading magic decides, but that the mark of a tape archive outweighs a weak
one.** -/
theorem builtin_announces :
    ∃ database, Database.builtin = .ok database ∧
      (∀ magic ∈ strongMagics, ∀ rest,
        Announces (database.identify (magic.bytes ++ rest)) magic.message (some magic.mime)) ∧
      ∀ magic ∈ weakMagics, ∀ rest,
        (¬ IsTape (magic.bytes ++ rest) →
          Announces (database.identify (magic.bytes ++ rest)) magic.message (some magic.mime)) ∧
        (IsTape (magic.bytes ++ rest) →
          Announces (database.identify (magic.bytes ++ rest)) "POSIX tar archive"
            (some "application/x-tar")) := by
  obtain ⟨database, hbuiltin, hstrong, hweak⟩ := exists_builtin
  refine ⟨database, hbuiltin, ?_, ?_⟩
  · intro magic hmagic rest
    obtain ⟨hdecides, hinsists⟩ := hstrong magic hmagic
    refine hdecides.announces ?_
    rw [hinsists]
    exact fun _ hmem => absurd hmem List.not_mem_nil
  · intro magic hmagic rest
    obtain ⟨hdecides, hyields⟩ := hweak magic hmagic
    exact ⟨hdecides.announces_of_not_isTape, hyields.announces⟩

/-- An executable that is cut short, and the mark of a tape archive behind the magic of another. -/
theorem builtin_announces_elf :
    ∃ database, Database.builtin = .ok database ∧
      Announces (database.identify [0x7F, 0x45, 0x4C, 0x46, 0x02]) "ELF"
        (some "application/x-executable") ∧
      Announces (database.identify ([0x7F, 0x45, 0x4C, 0x46] ++
          (List.replicate 253 0 ++ [0x75, 0x73, 0x74, 0x61, 0x72]))) "POSIX tar archive"
        (some "application/x-tar") := by
  obtain ⟨database, hbuiltin, -, hweak⟩ := builtin_announces
  have hcut : ¬ IsTape ([0x7F, 0x45, 0x4C, 0x46] ++ [0x02]) := by decide
  have htape : IsTape ([0x7F, 0x45, 0x4C, 0x46] ++
      (List.replicate 253 0 ++ [0x75, 0x73, 0x74, 0x61, 0x72])) := by decide +kernel
  exact ⟨database, hbuiltin, (hweak _ List.mem_cons_self _).1 hcut,
    (hweak _ List.mem_cons_self _).2 htape⟩

/-- Compressed data with the mark of a tape archive is not announced as compressed data. -/
theorem builtin_announces_outweighed :
    ∃ database, Database.builtin = .ok database ∧
      ¬ Announces (database.identify ([0x1F, 0x8B] ++
          (List.replicate 255 0 ++ [0x75, 0x73, 0x74, 0x61, 0x72]))) "gzip compressed data"
        (some "application/gzip") := by
  obtain ⟨database, hbuiltin, -, hweak⟩ := exists_builtin
  have htape : IsTape ([0x1F, 0x8B] ++ (List.replicate 255 0 ++ [0x75, 0x73, 0x74, 0x61, 0x72])) := by
    decide +kernel
  have hyields := (hweak _ (List.mem_cons_of_mem _ List.mem_cons_self)).2
  refine ⟨database, hbuiltin, fun hannounces => ?_⟩
  have hmime := (hyields.announces htape).mime
  exact absurd (hmime.symm.trans hannounces.mime) (by decide)

end Hallmark.Signature
