import Mathlib.Data.List.Basic
import Hallmark.Proofs.Except
import Hallmark.Proofs.Text.Splitting
import Hallmark.Volume.Disk

/-!
# `Hallmark/Proofs/Volume/Directory.lean` — the files of a directory

A directory that a path leads to (`Leads`) is known by its place; a file in it stands one name further.
Writing a file there brings its content and its name into the directory and leaves the rest as it was.
Main statements: `content_join_iff`, `mem_names_iff` and `write_join`.
-/

set_option autoImplicit false

namespace Hallmark.Volume

open Hallmark.Volume.Path (join)

/-! ## Following names -/

variable {volume after : Volume} {here there location : Location} {name : String}

theorem walk_append (volume : Volume) (here : Location) (before rest : List String) :
    volume.walk here (before ++ rest) =
      (volume.walk here before).bind fun there => volume.walk there rest := by
  induction before generalizing here with
  | nil => rfl
  | cons name before ih =>
    rw [List.cons_append, walk, walk]
    split
    · rfl
    · split
      · exact ih here
      · split
        · exact ih here.dropLast
        · split
          · rfl
          · split
            · rfl
            · exact ih (here ++ [name])

/-- The names before the last are followed to something that stands there. -/
theorem walkNew_concat (volume : Volume) (here : Location) (before : List String) (name : String) :
    volume.walkNew here (before ++ [name]) =
      (volume.walk here before).bind fun there => volume.walkNew there [name] := by
  induction before generalizing here with
  | nil => rfl
  | cons first before ih =>
    have hsplit : volume.walk here (first :: before) =
        (volume.walk here [first]).bind fun there => volume.walk there before :=
      volume.walk_append here [first] before
    rw [List.cons_append, walkNew, if_neg (by simp), hsplit]
    cases volume.walk here [first] with
    | error e => rfl
    | ok next => exact ih next

/-- A name that a file in a directory can have. -/
structure IsFileName (name : String) : Prop where
  noSlash : '/' ∉ name.toList
  notHere : isHere name = false
  notAbove : name ≠ ".."

theorem walk_name (hname : IsFileName name) (hd : volume.itemAt? here = some .directory) :
    volume.walk here [name] = .ok location ↔
      isTooLong name = false ∧ (volume.itemAt? (here ++ [name])).isSome ∧ location = here ++ [name] := by
  rw [walk, if_neg (by simp [hd]), if_neg (by simp [hname.notHere]), if_neg hname.notAbove]
  cases isTooLong name <;> cases volume.itemAt? (here ++ [name]) <;> simp [walk, eq_comm]

theorem walkNew_name (hname : IsFileName name) (hd : volume.itemAt? here = some .directory) :
    volume.walkNew here [name] = .ok location ↔ isTooLong name = false ∧ location = here ++ [name] := by
  rw [walkNew, if_pos List.isEmpty_nil, if_neg (by simp [hd]),
    if_neg (by simp [hname.notHere, hname.notAbove])]
  cases isTooLong name <;> simp [eq_comm]

/-! ## Paths -/

/-- A path that can be followed. -/
structure IsPath (path : String) : Prop where
  nonempty : path ≠ ""
  noNul : '\x00' ∉ path.toList
  fits : path.utf8ByteSize ≤ maxPathBytes

/-- Where the names of a path are followed from. -/
def origin (volume : Volume) (path : String) : Location :=
  if Path.isAbsolute path then [] else volume.workingDirectory

theorem start_eq_ok_iff {α : Type} {path : String} {a : α}
    {follow : Location → List String → Except SystemError α} :
    volume.start path follow = .ok a ↔
      IsPath path ∧ follow (volume.origin path) (Path.pieces path) = .ok a := by
  rw [start]
  split
  · rename_i h
    simp only [reduceCtorEq, false_iff, not_and]
    intro hp
    exact absurd (by simpa using h) hp.nonempty
  · rename_i hempty
    split
    · rename_i h
      simp only [reduceCtorEq, false_iff, not_and]
      intro hp
      exact absurd (by simpa using h) hp.noNul
    · rename_i hnul
      split
      · rename_i h
        simp only [reduceCtorEq, false_iff, not_and]
        intro hp
        exact absurd hp.fits (Nat.not_le_of_lt h)
      · rename_i hfits
        have hp : IsPath path :=
          ⟨by simpa using hempty, by simpa using hnul, Nat.le_of_not_lt hfits⟩
        simp only [hp, true_and]
        rfl

/-- A path of a directory that a name can be put after with a slash. -/
structure IsDirectoryPath (directory : String) : Prop where
  nonempty : directory ≠ ""
  noSlash : directory.toList.getLast? ≠ some '/'

variable {directory : String}

theorem join_eq (hd : IsDirectoryPath directory) (hname : IsFileName name) :
    join directory name = directory ++ "/" ++ name := by
  have hrelative : Path.isAbsolute name = false := by
    have hslash := hname.noSlash
    rw [Path.isAbsolute]
    cases h : name.toList with
    | nil => rfl
    | cons c cs =>
      rw [h] at hslash
      simpa using (List.ne_and_not_mem_of_not_mem_cons hslash).1.symm
  have hempty : directory.isEmpty = false := by simpa using hd.nonempty
  rw [join, hrelative, hempty, if_neg (by simp), if_neg (by simpa using hd.noSlash)]

theorem pieces_join (hd : IsDirectoryPath directory) (hname : IsFileName name) :
    Path.pieces (join directory name) = Path.pieces directory ++ [name] := by
  have hlist : (join directory name).toList = directory.toList ++ '/' :: name.toList := by
    simp [join_eq hd hname]
  rw [Path.pieces, Path.pieces, hlist, Text.pieces_append_pieces, Text.pieces_eq_singleton hname.noSlash]
  simp

theorem origin_join (hd : IsDirectoryPath directory) (hname : IsFileName name) :
    volume.origin (join directory name) = volume.origin directory := by
  have hhead : (join directory name).toList.head? = directory.toList.head? := by
    have hne : directory.toList ≠ [] := by simpa using hd.nonempty
    rw [join_eq hd hname, String.toList_append, String.toList_append, List.append_assoc,
      List.head?_append_of_ne_nil _ hne]
  rw [origin, origin, Path.isAbsolute, Path.isAbsolute, hhead]

/-! ## A directory and its files -/

/-- A path leads to a directory. -/
structure Leads (volume : Volume) (directory : String) (there : Location) : Prop where
  path : IsDirectoryPath directory
  resolved : volume.resolve directory = .ok there
  standing : volume.itemAt? there = some .directory

theorem Leads.walk (h : volume.Leads directory there) :
    volume.walk (volume.origin directory) (Path.pieces directory) = .ok there :=
  (start_eq_ok_iff.1 h.resolved).2

theorem leads_of_names {names : List String} (hd : IsDirectoryPath directory)
    (h : volume.names directory = .ok names) : ∃ there, volume.Leads directory there := by
  obtain ⟨there, hresolved, hnames⟩ := bind_eq_ok_iff.1 h
  cases hitem : volume.itemAt? there with
  | none => simp [hitem] at hnames
  | some item =>
    cases item with
    | file content => simp [hitem] at hnames
    | directory => exact ⟨there, hd, hresolved, hitem⟩

theorem itemAt?_concat (volume : Volume) (there : Location) (name : String) :
    volume.itemAt? (there ++ [name]) = volume.items.get? (there ++ [name]) := by
  rw [itemAt?, if_neg (by simp)]

/-- **The names in a directory** are those of what stands one name further. -/
theorem mem_names_iff (h : volume.Leads directory there) :
    ∃ names, volume.names directory = .ok names ∧
      ∀ name, name ∈ names ↔ (volume.itemAt? (there ++ [name])).isSome := by
  refine ⟨_, bind_eq_ok_iff.2 ⟨there, h.resolved, by simp only [h.standing]; rfl⟩, ?_⟩
  intro name
  rw [itemAt?_concat, ← Table.mem_keys_iff, List.mem_filterMap]
  constructor
  · rintro ⟨key, hkey, hname⟩
    split at hname
    · rename_i hdrop
      rw [← hdrop, List.dropLast_append_getLast? name hname]
      exact hkey
    · cases hname
  · intro hkey
    exact ⟨there ++ [name], hkey, by simp⟩

theorem content_eq_ok_iff {path : String} {document : List UInt8} :
    volume.content path = .ok document ↔
      ∃ location, volume.resolve path = .ok location ∧
        volume.itemAt? location = some (.file document) := by
  rw [content, bind_eq_ok_iff]
  constructor
  · rintro ⟨item, hitem, hfile⟩
    obtain ⟨location, hlocation, hfound⟩ := bind_eq_ok_iff.1 hitem
    refine ⟨location, hlocation, ?_⟩
    split at hfound
    · rename_i found hstands
      cases hfound
      cases item with
      | file content =>
        cases hfile
        exact hstands
      | directory => cases hfile
    · cases hfound
  · rintro ⟨location, hlocation, hstands⟩
    exact ⟨.file document, bind_eq_ok_iff.2 ⟨location, hlocation, by simp only [hstands]⟩, rfl⟩

/-- **The content of a file in a directory** is found at its place. -/
theorem content_join_iff (h : volume.Leads directory there) (hname : IsFileName name)
    {document : List UInt8} :
    volume.content (join directory name) = .ok document ↔
      IsPath (join directory name) ∧ isTooLong name = false ∧
        volume.itemAt? (there ++ [name]) = some (.file document) := by
  have hwalk : ∀ location, volume.resolve (join directory name) = .ok location ↔
      IsPath (join directory name) ∧ isTooLong name = false ∧
        (volume.itemAt? (there ++ [name])).isSome ∧ location = there ++ [name] := by
    intro location
    rw [resolve, start_eq_ok_iff, origin_join h.path hname, pieces_join h.path hname, walk_append, h.walk,
      ← walk_name hname h.standing]
    rfl
  rw [content_eq_ok_iff]
  constructor
  · rintro ⟨location, hlocation, hstands⟩
    obtain ⟨hpath, hlong, -, rfl⟩ := (hwalk location).1 hlocation
    exact ⟨hpath, hlong, hstands⟩
  · rintro ⟨hpath, hlong, hstands⟩
    exact ⟨there ++ [name], (hwalk _).2 ⟨hpath, hlong, by rw [hstands]; rfl, rfl⟩, hstands⟩

/-- **Writing a file in a directory** puts it at its place, where no directory may stand. -/
theorem write_join (h : volume.Leads directory there) (hname : IsFileName name) {document : List UInt8}
    (hw : volume.write (join directory name) document = .ok after) :
    IsPath (join directory name) ∧ isTooLong name = false ∧
      volume.itemAt? (there ++ [name]) ≠ some .directory ∧
      after = volume.put (there ++ [name]) (.file document) := by
  obtain ⟨location, hstart, hput⟩ := bind_eq_ok_iff.1 hw
  obtain ⟨hpath, hwalk⟩ := start_eq_ok_iff.1 hstart
  rw [origin_join h.path hname, pieces_join h.path hname, walkNew_concat, h.walk] at hwalk
  obtain ⟨hlong, rfl⟩ := (walkNew_name hname h.standing).1 hwalk
  refine ⟨hpath, hlong, ?_⟩
  split at hput
  · cases hput
  · rename_i hfree
    exact ⟨hfree, (Except.ok.inj hput).symm⟩

/-! ## After a file was put -/

theorem itemAt?_put (volume : Volume) (item : Item) (other : Location) :
    (volume.put (there ++ [name]) item).itemAt? other =
      if other = there ++ [name] then some item else volume.itemAt? other := by
  rw [itemAt?, itemAt?, put, Table.get?_insert]
  by_cases h : other = there ++ [name]
  · simp [h]
  · simp [h]

/-- Names are followed as before if no directory gave way to a file. -/
theorem walk_put {document : List UInt8} {names : List String}
    (hfree : volume.itemAt? (there ++ [name]) ≠ some .directory)
    (h : volume.walk here names = .ok location) :
    (volume.put (there ++ [name]) (.file document)).walk here names = .ok location := by
  have hdirectory : ∀ place, volume.itemAt? place = some .directory →
      (volume.put (there ++ [name]) (.file document)).itemAt? place = some .directory := by
    intro place hplace
    rw [itemAt?_put, if_neg, hplace]
    rintro rfl
    exact hfree hplace
  induction names generalizing here with
  | nil => exact h
  | cons first rest ih =>
    rw [walk] at h ⊢
    split at h
    · cases h
    · rename_i hhere
      rw [if_neg (not_not_intro (hdirectory here (not_not.1 hhere)))]
      split at h
      · rename_i hstay
        rw [if_pos hstay]
        exact ih h
      · rename_i hgo
        rw [if_neg hgo]
        split at h
        · rename_i hup
          rw [if_pos hup]
          exact ih h
        · rename_i hdown
          rw [if_neg hdown]
          split at h
          · cases h
          · rename_i hlong
            rw [if_neg hlong]
            split at h
            · cases h
            · rename_i hsome
              rw [if_neg]
              · exact ih h
              · rw [itemAt?_put]
                split
                · simp
                · exact hsome

theorem Leads.put {place : Location} (h : volume.Leads directory there) (document : List UInt8)
    (hfree : volume.itemAt? (place ++ [name]) ≠ some .directory) :
    (volume.put (place ++ [name]) (.file document)).Leads directory there where
  path := h.path
  resolved := by
    obtain ⟨hpath, hwalk⟩ := start_eq_ok_iff.1 h.resolved
    exact start_eq_ok_iff.2 ⟨hpath, walk_put hfree hwalk⟩
  standing := by
    rw [itemAt?_put, if_neg, h.standing]
    rintro rfl
    exact hfree h.standing

/-! ## A directory that exists -/

/-- Every directory on the way to a directory exists, so none is made. -/
theorem makeAlong_of_walk {names : List String} (h : volume.walk here names = .ok there)
    (hthere : volume.itemAt? there = some .directory) : volume.makeAlong here names = .ok volume := by
  induction names generalizing here with
  | nil => rfl
  | cons name rest ih =>
    rw [walk] at h
    rw [makeAlong]
    split at h
    · cases h
    · split at h
      · rename_i hstay
        rw [if_pos hstay]
        exact ih h
      · rename_i hgo
        rw [if_neg hgo]
        split at h
        · rename_i hup
          rw [if_pos hup]
          exact ih h
        · rename_i hdown
          rw [if_neg hdown]
          split at h
          · cases h
          · rename_i hlong
            rw [if_neg hlong]
            split at h
            · cases h
            · have hnext : volume.itemAt? (here ++ [name]) = some .directory := by
                cases rest with
                | nil =>
                  cases h
                  exact hthere
                | cons second rest =>
                  by_contra hnot
                  rw [walk, if_pos hnot] at h
                  cases h
              rw [hnext]
              exact ih h

theorem makeDirectories_of_leads (h : volume.Leads directory there) :
    volume.makeDirectories directory = .ok volume := by
  obtain ⟨hpath, hwalk⟩ := start_eq_ok_iff.1 h.resolved
  exact start_eq_ok_iff.2 ⟨hpath, makeAlong_of_walk hwalk h.standing⟩

/-! ## Changes that are settled -/

variable {changed : Except SystemError Volume}

theorem settle_eq_ok_iff : volume.settle changed = (.ok (), after) ↔ changed = .ok after := by
  cases changed <;> simp [settle]

theorem of_settle_error {error : SystemError} (h : volume.settle changed = (.error error, after)) :
    after = volume := by
  cases changed with
  | ok => simp [settle] at h
  | error => exact (congrArg Prod.snd h).symm

end Hallmark.Volume
