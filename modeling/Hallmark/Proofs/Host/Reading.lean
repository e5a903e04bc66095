import Mathlib.Data.List.Basic
import Hallmark.Host.Disk
import Hallmark.Host.Memory
import Hallmark.Host.Session
import Hallmark.Proofs.Except

/-!
# `Hallmark/Proofs/Host/Reading.lean` — reading a content into a buffer

A file in memory and a file on a disk are read alike: a read copies what the content has from an offset
on to the front of the buffer, as much as the buffer holds (`copied`). For a disk this rests on how the
system answers requests, which may bring less than there is room for (`Serves`); a disk of a session
answers so (`serves_session`), and so does one that brings its bytes in small portions
(`Serves.sluggish`). Where every read copies, reading on until nothing comes brings the whole content
(`Copies.readsOn_iff`). Main statement: `reads_agree`.
-/

set_option autoImplicit false

namespace Hallmark.Host

open Volume (positionLimit)

/-! ## Copying -/

section Copying

variable {content chunk buffer : List UInt8} {offset room : Nat}

/-- What a read of a content leaves: how many bytes were copied, and the buffer with them at its front. -/
def copied (content : List UInt8) (offset : Nat) (buffer : List UInt8) : Nat × List UInt8 :=
  let count := min buffer.length (content.length - offset)
  (count, (content.drop offset).take count ++ buffer.drop count)

/-- A window that is written to a buffer is copied to its front. -/
theorem write_window (content : List UInt8) (offset : Nat) (buffer : List UInt8) :
    ((window content offset buffer.length).length,
      (Buffer.write ⟨buffer, rfl⟩ (window content offset buffer.length)).bytes) =
        copied content offset buffer := by
  have hfits : (window content offset buffer.length).length ≤ buffer.length := by
    rw [length_window]
    exact Nat.min_le_left _ _
  have htake : window content offset buffer.length =
      (content.drop offset).take (min buffer.length (content.length - offset)) := by
    rw [window, ← List.length_drop, List.take_eq_take_min]
  rw [Buffer.bytes_write hfits, length_window, copied, htake]

/-- A copied buffer is as long as before, and starts with what the content has from the offset on. -/
theorem length_copied (content : List UInt8) (offset : Nat) (buffer : List UInt8) :
    (copied content offset buffer).2.length = buffer.length := by
  simp only [copied, List.length_append, List.length_take, List.length_drop]
  omega

theorem take_copied (content : List UInt8) (offset : Nat) (buffer : List UInt8) :
    (copied content offset buffer).2.take (copied content offset buffer).1 =
      (content.drop offset).take (copied content offset buffer).1 := by
  rw [copied]
  apply List.take_left'
  simp

/-- A window is some first bytes of it, and the window behind them. -/
theorem append_window (hchunk : chunk <+: content.drop offset) (hlength : chunk.length ≤ room) :
    chunk ++ window content (offset + chunk.length) (room - chunk.length) =
      window content offset room := by
  obtain ⟨rest, hrest⟩ := hchunk
  have hbehind : content.drop (offset + chunk.length) = rest := by
    rw [← List.drop_drop, ← hrest, List.drop_left]
  rw [window, window, hbehind, ← hrest, List.take_append, List.take_of_length_le hlength]

end Copying

/-! ## Requests to a disk -/

variable {σ : Type}

/-- While a file has a content, the system answers requests for its bytes, at least those that end at the
limit or before: each brings some of the bytes from its position on, and none only at the end. The file
keeps its content (`steady`), and its end is a position. -/
structure Serves [Disk σ] (path : String) (content : List UInt8) (limit : Nat) (steady : σ → Prop) :
    Prop where
  size : content.length < positionLimit
  seeks : ∀ {position : Nat} {world : σ}, position < positionLimit → steady world →
    Disk.seek path position world = .ok ()
  brings : ∀ {position room : Nat} {world : σ}, 0 < room → position + room ≤ limit → steady world →
    ∃ chunk after, Disk.readSome path position room world = (.ok chunk, after) ∧ steady after ∧
      chunk <+: content.drop position ∧ chunk.length ≤ room ∧
      (position < content.length → chunk ≠ [])

section Disks

variable [Disk σ] {path : String} {content : List UInt8} {limit : Nat} {steady : σ → Prop}

/-- What one request brings, from what the system answers. -/
theorem Serves.answer (h : Serves path content limit steady) {position room : Nat} {world after : σ}
    {answer : Except SystemError (List UInt8)} (hroom : 0 < room) (hlimit : position + room ≤ limit)
    (hworld : steady world) (hanswer : Disk.readSome path position room world = (answer, after)) :
    ∃ chunk, answer = .ok chunk ∧ steady after ∧ chunk <+: content.drop position ∧
      chunk.length ≤ room ∧ (position < content.length → chunk ≠ []) := by
  obtain ⟨chunk, after', hchunk, hsteady, hspec⟩ := h.brings hroom hlimit hworld
  cases hanswer.symm.trans hchunk
  exact ⟨chunk, rfl, hsteady, hspec⟩

/-- **However little each request brings, the room is filled** as far as there is content. -/
theorem Serves.fill (h : Serves path content limit steady) {position room : Nat} {world : σ}
    (hlimit : position + room ≤ limit) (hworld : steady world) :
    ∃ after, steady after ∧
      DiskFile.fill path position room world = (.ok (window content position room), after) := by
  fun_induction DiskFile.fill path position room world with
  | case1 position world =>
    refine ⟨world, hworld, ?_⟩
    rw [window, List.take_zero]
  | case2 position room world hroom e after hanswer =>
    obtain ⟨chunk, hchunk, -⟩ := h.answer (Nat.pos_of_ne_zero hroom) hlimit hworld hanswer
    cases hchunk
  | case3 position room world hroom chunk after hanswer hempty =>
    obtain ⟨_, hchunk, hsteady, -, -, hend⟩ :=
      h.answer (Nat.pos_of_ne_zero hroom) hlimit hworld hanswer
    cases hchunk
    have hpast : content.length ≤ position := by
      by_contra hbefore
      exact hend (Nat.lt_of_not_le hbefore) (List.isEmpty_iff.1 hempty)
    refine ⟨after, hsteady, ?_⟩
    rw [window, List.drop_of_length_le hpast, List.take_nil]
  | case4 position room world hroom chunk after hanswer hempty rest last hrest ih =>
    obtain ⟨_, hchunk, hsteady, hprefix, hlength, -⟩ :=
      h.answer (Nat.pos_of_ne_zero hroom) hlimit hworld hanswer
    cases hchunk
    obtain ⟨after', hafter, hfill⟩ := ih (by omega) hsteady
    cases hrest.symm.trans hfill
    refine ⟨last, hafter, ?_⟩
    rw [← append_window hprefix hlength]
    rfl

/-- However much is asked for, a disk brings no more. -/
def BringsWithin (σ : Type) [Disk σ] (path : String) : Prop :=
  ∀ (position room : Nat) (world : σ) (chunk : List UInt8) (after : σ),
    Disk.readSome path position room world = (.ok chunk, after) → chunk.length ≤ room

theorem length_fill_le (h : BringsWithin σ path) {position room : Nat} {world after : σ}
    {bytes : List UInt8}
    (hfill : DiskFile.fill path position room world = (.ok bytes, after)) : bytes.length ≤ room := by
  fun_induction DiskFile.fill path position room world generalizing bytes after with
  | case1 position world =>
    cases hfill
    exact Nat.le_refl 0
  | case2 => cases hfill
  | case3 =>
    cases hfill
    exact Nat.zero_le _
  | case4 position room world hroom chunk middle hanswer hempty rest last hrest ih =>
    obtain ⟨hmap, rfl⟩ := Prod.mk.inj hfill
    cases rest with
    | error e => cases hmap
    | ok later =>
      obtain rfl : chunk ++ later = bytes := Except.ok.inj hmap
      have hchunk := h position room world chunk middle hanswer
      have hlater := ih hrest
      rw [List.length_append]
      omega

end Disks

/-! ## Disks that bring little -/

/-- A session answers requests for a file on its volume, if no byte asked for lies past the last position. -/
theorem serves_session {path : String} {content : List UInt8} {limit : Nat}
    (hsize : content.length < positionLimit) (hlimit : limit < positionLimit) :
    Serves path content limit fun session : Session => session.volume.content path = .ok content where
  size := hsize
  seeks := by
    intro position session hposition hcontent
    obtain ⟨item, hitem, -⟩ := bind_eq_ok_iff.1 hcontent
    exact bind_eq_ok_iff.2 ⟨item, hitem, if_pos hposition⟩
  brings := by
    intro position room session hroom hfits hcontent
    refine ⟨window content position room, session, ?_, hcontent, List.take_prefix _ _,
      List.length_take_le _ _, ?_⟩
    · have hread : session.volume.readSome path position room = .ok (window content position room) := by
        rw [Volume.readSome, if_neg (by omega), hcontent]
        rfl
      exact congrArg (·, session) hread
    · intro hbefore
      apply List.length_pos_iff.1
      rw [length_window]
      omega

/-- A world in which a request brings few bytes at once. -/
structure Sluggish (σ : Type) where
  world : σ
  /-- How many bytes more than one each of the next requests brings at most. -/
  portions : List Nat := []

namespace Sluggish

variable [Disk σ]

def readSome (path : String) (position room : Nat) :
    StateM (Sluggish σ) (Except SystemError (List UInt8)) := fun disk =>
  let (answer, after) :=
    Disk.readSome path position (min room (disk.portions.headD 0 + 1)) disk.world
  (answer, { world := after, portions := disk.portions.tail })

/-- An operation that portions have no part in. -/
def within {α : Type} (operation : StateM σ α) : StateM (Sluggish σ) α := fun disk =>
  let (answer, after) := operation disk.world
  (answer, { disk with world := after })

instance : Disk (Sluggish σ) where
  status path disk := Disk.status path disk.world
  content path disk := Disk.content path disk.world
  names path disk := Disk.names path disk.world
  seek path position disk := Disk.seek path position disk.world
  readSome := readSome
  write path content := within (Disk.write path content)
  makeDirectories path := within (Disk.makeDirectories path)

instance [Blackboard σ] : Blackboard (Sluggish σ) where
  post file fact := within (Blackboard.post file fact)
  artifacts file disk := Blackboard.artifacts file disk.world

end Sluggish

/-- Requests for less are answered too, so small portions do no harm. -/
theorem Serves.sluggish [Disk σ] {path : String} {content : List UInt8} {limit : Nat}
    {steady : σ → Prop} (h : Serves path content limit steady) :
    Serves path content limit fun disk : Sluggish σ => steady disk.world where
  size := h.size
  seeks hposition hsteady := h.seeks hposition hsteady
  brings := by
    intro position room disk hroom hfits hsteady
    have hless : 0 < min room (disk.portions.headD 0 + 1) := by omega
    have hfits' : position + min room (disk.portions.headD 0 + 1) ≤ limit := by omega
    obtain ⟨chunk, after, hanswer, hafter, hprefix, hlength, hend⟩ := h.brings hless hfits' hsteady
    refine ⟨chunk, { world := after, portions := disk.portions.tail }, ?_, hafter, hprefix, by omega,
      hend⟩
    change Sluggish.readSome path position room disk = _
    rw [Sluggish.readSome, hanswer]

/-! ## Files that are read by copying -/

/-- In steady worlds a read of the file copies the content, and leaves such a world. -/
def Copies (file : HostFile σ) (content : List UInt8) (limit : Nat) (steady : σ → Prop) : Prop :=
  ∀ (offset : Nat) (buffer : List UInt8) (world : σ), offset < positionLimit →
    offset + buffer.length ≤ limit → steady world →
      ∃ after, steady after ∧
        readInto file offset buffer world = (.ok (copied content offset buffer), after)

section Files

variable [Blackboard σ] {content : List UInt8} {limit : Nat} {steady : σ → Prop}

theorem MemoryFile.readInto_eq (file : MemoryFile) (offset : Nat) (buffer : List UInt8) (world : σ) :
    readInto file.toHostFile offset buffer world = (.ok (copied file.content offset buffer), world) := by
  rw [← write_window]
  rfl

/-- A file in memory reports what it copied. -/
theorem MemoryFile.countsRead (file : MemoryFile) : (file.toHostFile : HostFile σ).CountsRead := by
  rintro offset room buffer world count filled after h
  obtain rfl : (window file.content offset room).length = count :=
    congrArg Prod.fst (Except.ok.inj (congrArg Prod.fst h))
  rw [length_window]
  exact Nat.min_le_left _ _

theorem MemoryFile.copies (file : MemoryFile) (limit : Nat) (world : σ) :
    Copies file.toHostFile file.content limit (· = world) := by
  rintro offset buffer world - - rfl
  exact ⟨world, rfl, file.readInto_eq offset buffer world⟩

/-- A file on a disk that brings no more than is asked for reports what it wrote to the buffer. -/
theorem DiskFile.countsRead [Disk σ] {file : DiskFile} (h : BringsWithin σ file.path) :
    (file.toHostFile : HostFile σ).CountsRead := by
  intro offset room buffer world count filled after hread
  change file.read offset buffer world = _ at hread
  rw [DiskFile.read] at hread
  split at hread
  · cases hread
  · obtain ⟨answer, last, hfill⟩ : ∃ answer last,
        DiskFile.fill file.path offset room world = (answer, last) := ⟨_, _, rfl⟩
    rw [hfill] at hread
    cases answer with
    | error e => cases hread
    | ok bytes =>
      obtain rfl : bytes.length = count :=
        congrArg Prod.fst (Except.ok.inj (congrArg Prod.fst hread))
      exact length_fill_le h hfill

theorem DiskFile.copies [Disk σ] {file : DiskFile} (h : Serves file.path content limit steady) :
    Copies file.toHostFile content limit steady := by
  intro offset buffer world hoffset hlimit hworld
  obtain ⟨after, hafter, hfill⟩ := h.fill hlimit hworld
  have hread : file.read offset ⟨buffer, rfl⟩ world =
      (.ok ((window content offset buffer.length).length,
        Buffer.write ⟨buffer, rfl⟩ (window content offset buffer.length)), after) := by
    rw [DiskFile.read, h.seeks hoffset hworld]
    simp only [hfill]
    rfl
  refine ⟨after, hafter, ?_⟩
  rw [← write_window]
  change ((file.read offset ⟨buffer, rfl⟩ world).1.map _, (file.read offset ⟨buffer, rfl⟩ world).2) = _
  rw [hread]
  rfl

end Files

/-! ## Reading on -/

/-- Reads into one buffer, each from where the one before it ended, up to a read that brings nothing:
what they brought, and the world after them. -/
inductive ReadsOn (file : HostFile σ) :
    (offset : Nat) → (buffer : List UInt8) → σ → List UInt8 → σ → Prop
  | done {offset : Nat} {buffer filled : List UInt8} {world after : σ}
      (h : readInto file offset buffer world = (.ok (0, filled), after)) :
      ReadsOn file offset buffer world [] after
  | more {offset count : Nat} {buffer filled bytes : List UInt8} {world middle after : σ}
      (h : readInto file offset buffer world = (.ok (count, filled), middle)) (hcount : 0 < count)
      (hrest : ReadsOn file (offset + count) filled middle bytes after) :
      ReadsOn file offset buffer world (filled.take count ++ bytes) after

section Loops

variable {file : HostFile σ} {content buffer bytes bytes' : List UInt8} {offset limit : Nat}
  {steady : σ → Prop} {world after after' : σ}

/-- What comes of reading on is decided by the file and the world. -/
theorem ReadsOn.unique (h : ReadsOn file offset buffer world bytes after)
    (h' : ReadsOn file offset buffer world bytes' after') : bytes = bytes' ∧ after = after' := by
  induction h generalizing bytes' with
  | done hread =>
    cases h' with
    | done hread' =>
      cases hread.symm.trans hread'
      exact ⟨rfl, rfl⟩
    | more hread' hcount' =>
      cases hread.symm.trans hread'
      cases hcount'
  | more hread hcount _ ih =>
    cases h' with
    | done hread' =>
      cases hread.symm.trans hread'
      cases hcount
    | more hread' hcount' hrest' =>
      cases hread.symm.trans hread'
      obtain ⟨rfl, hafter⟩ := ih hrest'
      exact ⟨rfl, hafter⟩

/-- From any offset within the content, reading on brings the rest of it. -/
theorem Copies.exists_readsOn (h : Copies file content limit steady)
    (hsize : content.length < positionLimit) (hlimit : content.length + buffer.length ≤ limit)
    (hbuffer : buffer ≠ []) (hoffset : offset ≤ content.length) (hworld : steady world) :
    ∃ after, steady after ∧ ReadsOn file offset buffer world (content.drop offset) after := by
  generalize hleft : content.length - offset = left
  induction left using Nat.strongRecOn generalizing offset buffer world with
  | _ left ih =>
    have hfits : offset + buffer.length ≤ limit := by omega
    obtain ⟨middle, hmiddle, hread⟩ :=
      h offset buffer world (Nat.lt_of_le_of_lt hoffset hsize) hfits hworld
    have hroom : 0 < buffer.length := List.length_pos_iff.2 hbuffer
    have hcount : (copied content offset buffer).1 = min buffer.length left := by
      rw [← hleft]
      rfl
    have hlength := length_copied content offset buffer
    have htake := take_copied content offset buffer
    generalize copied content offset buffer = result at hread hcount hlength htake
    obtain ⟨count, filled⟩ := result
    simp only at hread hcount hlength htake
    by_cases hend : count = 0
    · have hpast : content.length ≤ offset := by omega
      subst hend
      rw [List.drop_of_length_le hpast]
      exact ⟨middle, hmiddle, .done hread⟩
    · have hlimit' : content.length + filled.length ≤ limit := by omega
      have hfilled : filled ≠ [] := List.length_pos_iff.1 (by omega)
      have hnext : offset + count ≤ content.length := by omega
      obtain ⟨after, hafter, hrest⟩ := ih (left - count) (by omega) hlimit' hfilled hnext hmiddle (by omega)
      have hmore := ReadsOn.more hread (Nat.pos_of_ne_zero hend) hrest
      rw [htake, ← List.drop_drop, List.take_append_drop] at hmore
      exact ⟨after, hafter, hmore⟩

/-- **Reading on brings the content,** and nothing else. -/
theorem Copies.readsOn_iff (h : Copies file content limit steady)
    (hsize : content.length < positionLimit) (hlimit : content.length + buffer.length ≤ limit)
    (hbuffer : buffer ≠ []) (hworld : steady world) :
    ∃ after, steady after ∧
      ∀ bytes last, ReadsOn file 0 buffer world bytes last ↔ bytes = content ∧ last = after := by
  obtain ⟨after, hafter, hreads⟩ := h.exists_readsOn hsize hlimit hbuffer (Nat.zero_le _) hworld
  rw [List.drop_zero] at hreads
  refine ⟨after, hafter, fun bytes last => ⟨fun h' => h'.unique hreads, ?_⟩⟩
  rintro ⟨rfl, rfl⟩
  exact hreads

end Loops

/-! ## Both kinds of files -/

/-- **A file in memory and a file on a disk are read alike.** A read copies the content from the offset on
to the front of the buffer, and leaves the rest of the buffer as it was. The disk may bring few bytes at
once; it need only answer requests up to some limit, as no system answers those past the last position.
Reading on from the start brings the content, whatever room there is. -/
theorem reads_agree [Disk σ] [Blackboard σ] {memory : MemoryFile} {disk : DiskFile} {limit : Nat}
    {steady : σ → Prop} (h : Serves disk.path memory.content limit steady) :
    (∀ (offset : Nat) (buffer : List UInt8) (world : σ),
      readInto memory.toHostFile offset buffer world =
        (.ok (copied memory.content offset buffer), world)) ∧
    (∀ (offset : Nat) (buffer : List UInt8) (world : σ),
      offset < positionLimit → offset + buffer.length ≤ limit → steady world →
      ∃ after, steady after ∧ readInto disk.toHostFile offset buffer world =
        (.ok (copied memory.content offset buffer), after)) ∧
    ∀ (buffer : List UInt8) (world : σ), buffer ≠ [] →
      (∀ bytes last, ReadsOn memory.toHostFile 0 buffer world bytes last ↔
        bytes = memory.content ∧ last = world) ∧
      (memory.content.length + buffer.length ≤ limit → steady world → ∃ after, steady after ∧
        ∀ bytes last, ReadsOn disk.toHostFile 0 buffer world bytes last ↔
          bytes = memory.content ∧ last = after) := by
  refine ⟨memory.readInto_eq, DiskFile.copies h, ?_⟩
  intro buffer world hbuffer
  constructor
  · have hcopies := memory.copies (memory.content.length + buffer.length) world
    obtain ⟨after, rfl, hreads⟩ := hcopies.readsOn_iff h.size (Nat.le_refl _) hbuffer rfl
    exact hreads
  · intro hlimit
    exact (DiskFile.copies h).readsOn_iff h.size hlimit hbuffer

/-- A disk brings one byte, then two at most, then one at a time. -/
theorem reads_agree_sluggish :
    ∃ (world : Sluggish Session) (memory : MemoryFile) (disk : DiskFile)
      (steady : Sluggish Session → Prop),
      DiskFile.openAt ⟨7⟩ "f" world = .ok disk ∧ memory.content = [1, 2, 3] ∧
      Serves disk.path memory.content 8 steady ∧ steady world ∧
      (∃ after, readInto disk.toHostFile 1 [9, 9, 9, 9] world = (.ok (2, [2, 3, 9, 9]), after)) ∧
      ∃ after, ReadsOn disk.toHostFile 0 [9, 9] world [1, 2, 3] after := by
  let items : Table Volume.Location Volume.Item := {}
  let volume : Volume := { items := items.insert ["f"] (.file [1, 2, 3]) }
  let world : Sluggish Session := { world := { volume := volume }, portions := [0, 1] }
  let memory : MemoryFile := { id := ⟨7⟩, content := [1, 2, 3] }
  let disk : DiskFile := { id := ⟨7⟩, path := "f", size := 3 }
  have hserves : Serves disk.path memory.content 8
      fun world : Sluggish Session => world.world.volume.content "f" = .ok [1, 2, 3] :=
    (serves_session (by decide) (by decide)).sluggish
  have hcontent : world.world.volume.content "f" = .ok [1, 2, 3] := by decide +kernel
  obtain ⟨-, hread, hreads⟩ := reads_agree hserves
  obtain ⟨after, -, hafter⟩ := hread 1 [9, 9, 9, 9] world (by decide) (by decide) hcontent
  obtain ⟨last, -, hlast⟩ := (hreads [9, 9] world (by decide)).2 (by decide) hcontent
  exact ⟨world, memory, disk, _, rfl, rfl, hserves, hcontent, ⟨after, hafter⟩,
    ⟨last, (hlast _ _).2 ⟨rfl, rfl⟩⟩⟩

end Hallmark.Host
