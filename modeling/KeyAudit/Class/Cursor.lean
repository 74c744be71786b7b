import KeyAudit.Bytes
import KeyAudit.Class.Pool

namespace KeyAudit

/-!
# Reading numbers and raw bytes in order

A cursor holds the bytes that are still to be read and the number of bytes
read so far.  Reading more bytes than are left fails and names the place.
-/

/-- The unread bytes and the offset of the first of them. -/
structure Cursor where
  rest : Bytes
  offset : Nat
  deriving Repr, DecidableEq

/-- A step that reads from a cursor. -/
abbrev Reading := StateT Cursor (Except ClassFault)

namespace Reading

/-- Run a step from the start of some bytes. -/
def run (reading : Reading α) (bytes : Bytes) : Except ClassFault α :=
  match StateT.run reading ⟨bytes, 0⟩ with
  | .error fault => .error fault
  | .ok (value, _) => .ok value

/-- Read so many bytes. -/
def take (count : Nat) : Reading Bytes := fun cursor =>
  match cursor.rest.split? count with
  | none => .error (.truncated count cursor.offset)
  | some (taken, rest) => .ok (taken, ⟨rest, cursor.offset + count⟩)

/-- Read an unsigned number of so many bytes. -/
def number (width : Nat) : Reading Nat := do
  return (← take width).toNat

/-- Read a signed number of so many bytes. -/
def signedNumber (width : Nat) : Reading Int := do
  return Bytes.signed width (← number width)

/-- Read one byte. -/
def u1 : Reading Nat := number 1

/-- Read a two-byte number. -/
def u2 : Reading Nat := number 2

/-- Read a four-byte number. -/
def u4 : Reading Nat := number 4

/-- Repeat a step so many times and keep the results in order. -/
def times : Nat → Reading α → Reading (List α)
  | 0, _ => return []
  | count + 1, reading => do
      let first ← reading
      let others ← times count reading
      return first :: others

/-- Read a count of two bytes and then repeat a step as often. -/
def counted (reading : Reading α) : Reading (List α) := do
  times (← u2) reading

/-- Use what a lookup gives, or fail as it fails. -/
def lookup (result : Except ClassFault α) : Reading α :=
  StateT.lift result

end Reading

end KeyAudit
