import Hallmark.Proofs.Signature.Reading
import Hallmark.Proofs.Text.Splitting
import Hallmark.Signature.Database

/-!
# `Hallmark/Proofs/Signature/Refusal.lean` — where a database text is refused

Reading stops at the first line that is refused, and the error that it stops with names this line, whichever
reader it comes from (`Draft.eq_line_of_addLine`). What stands before that line can be read, and what comes
after it has no say: of a refused text only the lines up to the one that is named matter. Main statement:
`read_refused`.
-/

set_option autoImplicit false

namespace Hallmark.Signature

theorem Database.read_eq_error_iff {text : List Char} {error : DatabaseError} :
    Database.read text = .error error ↔ Draft.addLines {} 1 (Text.lines text) = .error error := by
  rw [Database.read, map_eq_error_iff, readForest, map_eq_error_iff]

theorem Database.exists_read_iff {text : List Char} :
    (∃ database, Database.read text = .ok database) ↔
      ∃ draft, Draft.addLines {} 1 (Text.lines text) = .ok draft := by
  simp only [Database.read, map_eq_ok_iff, readForest]
  constructor
  · rintro ⟨-, -, ⟨draft, hdraft, -⟩, -⟩
    exact ⟨draft, hdraft⟩
  · rintro ⟨draft, hdraft⟩
    exact ⟨_, _, ⟨draft, hdraft, rfl⟩, rfl⟩

/-- The first lines of a text that is read are read. -/
theorem Draft.exists_addLines_take {lines : List (List Char)} {draft : Draft} {number : Nat}
    {final : Draft} (count : Nat) (h : draft.addLines number lines = .ok final) :
    ∃ middle, draft.addLines number (lines.take count) = .ok middle := by
  rw [← List.take_append_drop count lines, Draft.addLines_append] at h
  obtain ⟨middle, hmiddle, -⟩ := bind_eq_ok_iff.1 h
  exact ⟨middle, hmiddle⟩

/-- **A refused text names the first line that is refused**: the lines before it are read (the text of
`Text.firstLines` has them), and no text with the same lines up to there is. A text is read if and only if
its first lines are, however many. -/
theorem read_refused (text : List Char) :
    (∀ error, Database.read text = .error error →
      ∃ number reason, error = .line number reason ∧
        1 ≤ number ∧ number ≤ (Text.lines text).length ∧
        (∀ earlier, Text.lines earlier = (Text.lines text).take (number - 1) →
          ∃ database, Database.read earlier = .ok database) ∧
        ∀ other, (Text.lines other).take number = (Text.lines text).take number →
          Database.read other = .error (.line number reason)) ∧
    ((∀ count, ∃ database, Database.read (Text.firstLines count text) = .ok database) ↔
      ∃ database, Database.read text = .ok database) := by
  refine ⟨?_, ?_, ?_⟩
  · intro error h
    obtain ⟨before, raw, after, middle, hlines, hbefore, hraw⟩ :=
      Draft.addLines_eq_error_iff.1 (Database.read_eq_error_iff.1 h)
    obtain ⟨reason, rfl⟩ := Draft.eq_line_of_addLine hraw
    refine ⟨1 + before.length, reason, rfl, Nat.le_add_right 1 _, ?_, ?_, ?_⟩
    · rw [hlines, List.length_append, List.length_cons]
      omega
    · intro earlier hearlier
      have hsame : Text.lines earlier = before := by
        rw [hearlier, hlines, Nat.add_sub_cancel_left, List.take_left]
      exact Database.exists_read_iff.2 ⟨middle, hsame ▸ hbefore⟩
    · intro other hother
      -- The refused line is the last of those that are the same.
      have hsame : (Text.lines other).take (1 + before.length) = before ++ [raw] := by
        rw [hother, hlines, Nat.add_comm, List.take_length_add_append]
        rfl
      have hsplit : Text.lines other =
          before ++ raw :: (Text.lines other).drop (1 + before.length) := by
        have hparts := List.take_append_drop (1 + before.length) (Text.lines other)
        rw [hsame, List.append_assoc] at hparts
        exact hparts.symm
      exact Database.read_eq_error_iff.2
        (Draft.addLines_eq_error_iff.2 ⟨before, raw, _, middle, hsplit, hbefore, hraw⟩)
  · intro h
    obtain ⟨draft, hdraft⟩ := Database.exists_read_iff.1 (h (Text.lines text).length)
    rw [Text.lines_firstLines, List.take_length] at hdraft
    exact Database.exists_read_iff.2 ⟨draft, hdraft⟩
  · intro h count
    obtain ⟨draft, hdraft⟩ := Database.exists_read_iff.1 h
    obtain ⟨middle, hmiddle⟩ := Draft.exists_addLines_take count hdraft
    exact Database.exists_read_iff.2 ⟨middle, by rw [Text.lines_firstLines]; exact hmiddle⟩

/-- The third line has no offset, and a fourth one that is also refused does not matter. -/
theorem read_refused_third :
    Database.read "0 byte 1 a\n\n>\nnone".toList = .error (.line 3 .missingOffset) ∧
    (∃ database, Database.read "0 byte 1 a\n\n".toList = .ok database) ∧
    Database.read "0 byte 1 a\r\n\n>\n0 byte 2 b\n".toList = .error (.line 3 .missingOffset) ∧
    ∃ database, Database.read "0 byte 1 a\n>1 byte 2 b".toList = .ok database := by
  have hread : Database.read "0 byte 1 a\n\n>\nnone".toList = .error (.line 3 .missingOffset) := rfl
  obtain ⟨number, reason, herror, -, -, hearlier, hother⟩ := (read_refused _).1 _ hread
  cases herror
  have hwhole : ∃ database, Database.read "0 byte 1 a\n>1 byte 2 b".toList = .ok database := ⟨_, rfl⟩
  refine ⟨hread, hearlier _ (by decide +kernel), hother _ (by decide +kernel), ?_⟩
  exact (read_refused _).2.1 ((read_refused _).2.2 hwhole)

end Hallmark.Signature
