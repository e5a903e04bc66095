/-!
# `Hallmark/Host/Buffer.lean` — buffers that files are read into

A buffer is made with a number of bytes, and keeps it: what is written to it takes the place of bytes that it
has, as far as there is room. Not every number of bytes can be allocated, and asking for more is no error that
a caller could handle. Main statements: `bytes_write`, `length_front`.
-/

set_option autoImplicit false

namespace Hallmark.Host

/-- As many bytes as there is room for. -/
structure Buffer (room : Nat) where
  bytes : List UInt8
  length_eq : bytes.length = room

namespace Buffer

/-- The most bytes that one allocation can have, half of what a word of 64 bits can count: one less than
the 63rd power of two. -/
def limit : Nat := 9223372036854775807

def zeros (room : Nat) : Buffer room := ⟨List.replicate room 0, List.length_replicate⟩

/-- A new buffer; `none` if no allocation can have so many bytes. Memory that runs out below the limit is
not part of the model. -/
def allocate? (room : Nat) : Option (Buffer room) := if room ≤ limit then some (zeros room) else none

variable {room : Nat}

/-- Copies bytes to the front, as many as there is room for. -/
def write (buffer : Buffer room) (bytes : List UInt8) : Buffer room where
  bytes := (bytes ++ buffer.bytes.drop bytes.length).take room
  length_eq := by
    have h := buffer.length_eq
    simp only [List.length_take, List.length_append, List.length_drop]
    omega

/-- Where there is room for all of the bytes, they are all copied, and those behind them stay. -/
theorem bytes_write {buffer : Buffer room} {bytes : List UInt8} (h : bytes.length ≤ room) :
    (buffer.write bytes).bytes = bytes ++ buffer.bytes.drop bytes.length := by
  have hlength := buffer.length_eq
  apply List.take_of_length_le
  simp only [List.length_append, List.length_drop]
  omega

/-- The first bytes: all of them if more are asked for. -/
def front (buffer : Buffer room) (count : Nat) : List UInt8 := buffer.bytes.take count

theorem length_front (buffer : Buffer room) (count : Nat) :
    (buffer.front count).length = min count room := by
  rw [front, List.length_take, buffer.length_eq]

end Buffer

end Hallmark.Host
