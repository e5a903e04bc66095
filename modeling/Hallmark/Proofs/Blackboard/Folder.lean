import Hallmark.Blackboard.Folder

/-!
# `Hallmark/Proofs/Blackboard/Folder.lean` — what a folder does with its disk

A post writes one document, and changes the index only if that succeeds (`of_post_ok`, `of_post_error`);
so whatever comes of it, other files keep their artifacts (`artifacts_post_of_ne`). An opening makes the
directory and reads the documents in it (`openAt_eq_ok_iff`).
-/

set_option autoImplicit false

namespace Hallmark.Blackboard.Folder

open Volume (Path.join)

variable {σ : Type} [Disk σ]

variable {folder next : Folder} {world after : σ} {freshId : String} {file : FileId} {fact : Attribute}

/-- A post that is taken has written the document and then changed the index. -/
theorem of_post_ok (h : folder.post freshId file fact world = ((.ok (), next), after)) :
    Disk.write (folder.documentPath file)
        (documentOf ((folder.index.post freshId file fact).artifacts file)) world = (.ok (), after) ∧
      next = { folder with index := folder.index.post freshId file fact } := by
  rw [post] at h
  split at h
  · rename_i hw
    cases h
    exact ⟨hw, rfl⟩
  · cases h

/-- A post that is refused has left the folder as it was. -/
theorem of_post_error {error : BlackboardError}
    (h : folder.post freshId file fact world = ((.error error, next), after)) :
    (∃ refusal, Disk.write (folder.documentPath file)
        (documentOf ((folder.index.post freshId file fact).artifacts file)) world =
          (.error refusal, after)) ∧
      next = folder := by
  rw [post] at h
  split at h
  · cases h
  · rename_i refusal _ hw
    cases h
    exact ⟨⟨refusal, hw⟩, rfl⟩

/-- Whatever comes of a post, other files keep their artifacts. -/
theorem artifacts_post_of_ne {other : FileId} (h : other ≠ file) :
    (folder.post freshId file fact world).1.2.index.artifacts other = folder.index.artifacts other := by
  obtain ⟨⟨answer, next⟩, after, hp⟩ : ∃ posted after,
      folder.post freshId file fact world = (posted, after) := ⟨_, _, rfl⟩
  rw [hp]
  cases answer with
  | ok =>
    obtain ⟨-, rfl⟩ := of_post_ok hp
    exact (Index.artifacts_post ..).trans (if_neg h)
  | error error =>
    obtain ⟨-, rfl⟩ := of_post_error hp
    rfl

/-- An opening that succeeds has made the directory and read the documents that the names in it lead to. -/
theorem openAt_eq_ok_iff {base : String} :
    openAt base world = (.ok folder, after) ↔
      folder.base = base ∧ ∃ names, Disk.makeDirectories folder.directory world = (.ok (), after) ∧
        Disk.names folder.directory after = .ok names ∧
        folder.index = Index.ofDocuments names fun name =>
          Disk.content (Path.join folder.directory name) after := by
  constructor
  · intro h
    rw [openAt] at h
    split at h
    · cases h
    · rename_i hmake
      split at h
      · cases h
      · rename_i names hnames
        cases h
        exact ⟨rfl, names, hmake, hnames, rfl⟩
  · rintro ⟨rfl, names, hmake, hnames, hindex⟩
    rw [directory] at hmake hnames
    simp only [openAt, directory, hmake, hnames]
    rw [← directory, ← hindex]

/-- A folder that is opened where there are no documents has an empty index. -/
theorem index_of_openAt {base : String} (h : openAt base world = (.ok folder, after))
    (hn : Disk.names folder.directory after = .ok []) : folder.index = {} := by
  obtain ⟨-, names, -, hnames, hindex⟩ := openAt_eq_ok_iff.1 h
  obtain rfl : names = [] := Except.ok.inj (hnames.symm.trans hn)
  exact hindex

end Hallmark.Blackboard.Folder
