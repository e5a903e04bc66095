import Hallmark.Proofs.Content.Cleaning
import Hallmark.Proofs.Module.Run
import Hallmark.Proofs.Text.Cut

/-!
# `Hallmark/Proofs/Content/Labelling.lean` — what a label keeps of its text

A label is the text up to its first NUL, and no more bytes of it than there is room for. It has all these
bytes, but for those of a character that the end cuts short: each of them is replaced
(`exists_fit_cleanText`). No byte of a label is a NUL, so a label is its own label. Main statement:
`cleanLabel_fits`.
-/

set_option autoImplicit false

namespace Hallmark.Content

open Text.Utf8

/-- The text starts with the other one, which has room, and with no longer one that has. -/
structure IsLongestFit (text : String) (room : Nat) (front : String) : Prop where
  starts : front.toList <+: text.toList
  fits : (bytes front).length ≤ room
  longest : ∀ other : String, other.toList <+: text.toList → (bytes other).length ≤ room →
    other.toList <+: front.toList

/-- The number of bytes that a label takes from a text: those before the first NUL, or all if there is
none, and no more than the limit. -/
def labelRoom (raw : String) (limit : Nat) : Nat := min limit ((bytes raw).idxOf 0)

/-! ## Bytes of a label -/

/-- A label is cut at the first NUL or at the limit, whichever comes first. -/
theorem cleanLabel_eq (raw : List UInt8) (limit : Nat) :
    cleanLabel raw limit = cleanText (raw.take (min limit (raw.idxOf 0))) := by
  have hnul : raw.findIdx (fun b => !(b != 0)) = raw.idxOf 0 := by
    simp only [List.idxOf, bne, Bool.not_not]
  rw [cleanLabel, List.takeWhile_eq_take_findIdx_not, hnul, List.take_take]

theorem zero_not_mem_take_idxOf (raw : List UInt8) (limit : Nat) :
    (0 : UInt8) ∉ raw.take (min limit (raw.idxOf 0)) := by
  intro hmem
  have hlt := (List.mem_take_iff_idxOf_lt (List.mem_of_mem_take hmem)).1 hmem
  omega

/-- A byte of a clean text is one of the bytes that it was made from, or the replacement. -/
theorem mem_bytes_cleanText {bs : List UInt8} {b : UInt8} (h : b ∈ bytes (cleanText bs)) :
    b ∈ bs ∨ b = 0x5E := by
  rw [bytes_cleanText] at h
  obtain ⟨i, hi⟩ := List.mem_iff_getElem?.1 h
  obtain ⟨hkept, hreplaced⟩ := getElem?_encode_scrub bs i
  by_cases hin : InCharacter bs i
  · rw [hkept hin] at hi
    exact .inl (List.mem_of_getElem? hi)
  · have hlt := (List.getElem?_eq_some_iff.1 hi).1
    rw [length_encode_scrub] at hlt
    rw [hreplaced hin hlt] at hi
    exact .inr (Option.some.inj hi).symm

theorem zero_not_mem_cleanLabel (raw : List UInt8) (limit : Nat) :
    (0 : UInt8) ∉ bytes (cleanLabel raw limit) := by
  rw [cleanLabel_eq]
  intro hmem
  rcases mem_bytes_cleanText hmem with hraw | hreplacement
  · exact zero_not_mem_take_idxOf raw limit hraw
  · exact absurd hreplacement (by decide)

theorem length_cleanLabel (raw : List UInt8) (limit : Nat) :
    (bytes (cleanLabel raw limit)).length = min limit (raw.idxOf 0) := by
  have hle : raw.idxOf 0 ≤ raw.length := List.idxOf_le_length
  rw [cleanLabel_eq, bytes_cleanText, length_encode_scrub, List.length_take]
  omega

/-- A label within its limit is its own label. -/
theorem cleanLabel_cleanLabel (raw : List UInt8) (limit : Nat) :
    cleanLabel (bytes (cleanLabel raw limit)) limit = cleanLabel raw limit := by
  have hlength := length_cleanLabel raw limit
  rw [cleanLabel_eq (bytes _), List.idxOf_eq_length (zero_not_mem_cleanLabel raw limit),
    List.take_of_length_le (by omega), cleanText_bytes]

/-! ## The characters that are kept -/

/-- Of a text that is cut inside a character, the characters before it are kept. -/
theorem cleanText_encode_cut (before : List Char) {c : Char} {k : Nat}
    (hk : k < (String.utf8EncodeChar c).length) :
    cleanText (encode before ++ (String.utf8EncodeChar c).take k) =
      String.ofList before ++ String.ofList (List.replicate k replacement) := by
  have hend : IsBoundary [] := by
    intro b hb
    cases hb
  have hcut := cleanText_cut hk (encode before) hend
  have hbefore : cleanText (encode before) = String.ofList before := by
    rw [cleanText, scrub_encode]
  have hnothing : cleanText [] = "" := by
    rw [cleanText, scrub_nil, String.ofList_nil]
  rwa [List.append_nil, hbefore, hnothing, String.append_empty] at hcut

/-- **A text that is cut keeps its longest start that has room, and each byte behind that is replaced.** -/
theorem exists_fit_cleanText (text : String) {room : Nat} (hroom : room ≤ (bytes text).length) :
    ∃ front k, IsLongestFit text room front ∧ k = room - (bytes front).length ∧ k ≤ 3 ∧
      cleanText ((bytes text).take room) = front ++ String.ofList (List.replicate k replacement) := by
  rcases Nat.lt_or_ge room (bytes text).length with hlt | hge
  · obtain ⟨before, c, after, k, htext, hk, hcut, htake⟩ := exists_cut text.toList hlt
    have hbefore : bytes (String.ofList before) = encode before := by
      rw [bytes, String.toList_ofList]
    have hfour := Char.utf8Size_le_four c
    rw [← String.length_utf8EncodeChar] at hfour
    refine ⟨String.ofList before, k, ⟨?_, ?_, ?_⟩, ?_, by omega, ?_⟩
    · rw [String.toList_ofList, htext]
      exact List.prefix_append _ _
    · rw [hbefore, hcut]
      exact Nat.le_add_right _ _
    · intro other hother hfits
      rw [htext] at hother
      rw [String.toList_ofList]
      exact prefix_of_length_encode_lt hother (Nat.lt_of_le_of_lt hfits (by omega))
    · rw [hbefore]
      omega
    · rw [bytes, htake, cleanText_encode_cut before hk]
  · obtain rfl : room = (bytes text).length := Nat.le_antisymm hroom hge
    refine ⟨text, 0, ⟨List.prefix_refl _, Nat.le_refl _, fun _ h _ => h⟩, ?_, by omega, ?_⟩
    · rw [Nat.sub_self]
    · rw [List.take_length, cleanText_bytes, List.replicate_zero, String.ofList_nil,
        String.append_empty]

/-! ## Labels -/

/-- **A label has just as many bytes as there is room for, and of these it keeps the whole characters.** So
no label that is posted is longer than the settings allow, and a label does not change if it is made into
one again. -/
theorem cleanLabel_fits (raw : String) (limit : Nat) :
    (bytes (cleanLabel (bytes raw) limit)).length = labelRoom raw limit ∧
    0 ∉ bytes (cleanLabel (bytes raw) limit) ∧
    (∃ front k, IsLongestFit raw (labelRoom raw limit) front ∧
      k = labelRoom raw limit - (bytes front).length ∧ k ≤ 3 ∧
      cleanLabel (bytes raw) limit = front ++ String.ofList (List.replicate k '^')) ∧
    cleanLabel (bytes (cleanLabel (bytes raw) limit)) limit = cleanLabel (bytes raw) limit ∧
    ∀ {σ : Type} [Host.Surroundings σ] (m : FileTypeModule σ) (file : HostFile σ) (world : σ)
      (fact : Blackboard.Attribute) (answer : Except Blackboard.BlackboardError Unit),
      .post fact answer ∈ m.callsOf file world → m.config.maxLabelLength = limit →
        ∃ posted, fact.value = .text posted ∧ (bytes posted).length ≤ limit := by
  refine ⟨length_cleanLabel _ _, zero_not_mem_cleanLabel _ _, ?_, cleanLabel_cleanLabel _ _, ?_⟩
  · have hroom : labelRoom raw limit ≤ (bytes raw).length :=
      Nat.le_trans (Nat.min_le_right _ _) List.idxOf_le_length
    obtain ⟨front, k, hfit, hk, hthree, htext⟩ := exists_fit_cleanText raw hroom
    rw [labelRoom, ← cleanLabel_eq] at htext
    exact ⟨front, k, hfit, hk, hthree, htext⟩
  · intro σ _ m file world fact answer hpost hlimit
    obtain ⟨before, behind, hcalls⟩ := List.append_of_mem hpost
    obtain ⟨-, -, identification, -, hreports⟩ := (m.runs_run file world).of_post hcalls
    refine ⟨_, hreports.value, ?_⟩
    rw [length_cleanLabel, hlimit]
    exact Nat.min_le_left _ _

/-- Three bytes are room for a letter and for two of the three bytes of a euro sign. -/
theorem cleanLabel_fits_cut :
    ∃ (m : FileTypeModule Host.Session) (memory : Host.MemoryFile) (session : Host.Session)
      (fact : Blackboard.Attribute) (label : String),
      m.config.maxLabelLength = 3 ∧ .post fact (.ok ()) ∈ m.callsOf memory.toHostFile session ∧
      cleanLabel (bytes "a\u20acb") 3 = "a^^" ∧ fact.value = .text label ∧
      (bytes label).length ≤ 3 ∧ (bytes (cleanLabel (bytes "a\u20acb") 3)).length = 3 := by
  let session : Host.Session := { scripts := [{ usual := ⟨"a\u20acb", none⟩ }] }
  let m : FileTypeModule Host.Session :=
    { config := { bufferSize := 1, maxLabelLength := 3 }, matcher := some (session.scripted 0) }
  let memory : Host.MemoryFile := { id := ⟨7⟩, content := [0x61] }
  let fact := FileTypeModule.factOf m.config ⟨"a\u20acb", none⟩ (Host.Surroundings.now session)
  have hcalls : m.callsOf memory.toHostFile session =
      [.read 0 m.config.bufferSize (.ok (1, [0x61])), .identify [0x61] (.ok ⟨"a\u20acb", none⟩),
        .post fact (.ok ())] := rfl
  have hpost : .post fact (.ok ()) ∈ m.callsOf memory.toHostFile session := by
    rw [hcalls]
    simp
  obtain ⟨hlength, -, -, -, hposted⟩ := cleanLabel_fits "a\u20acb" 3
  obtain ⟨label, hvalue, hle⟩ := hposted m memory.toHostFile session fact _ hpost rfl
  exact ⟨m, memory, session, fact, label, rfl, hpost, by decide +kernel, hvalue, hle,
    hlength.trans (by decide +kernel)⟩

end Hallmark.Content
