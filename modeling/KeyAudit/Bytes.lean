namespace KeyAudit

/-!
# Byte strings

Numbers are written with their most significant byte first.
-/

/-- A finite sequence of bytes. -/
abbrev Bytes := List UInt8

namespace Bytes

/-- The number that bytes stand for, most significant byte first. -/
def toNat (bytes : Bytes) : Nat :=
  bytes.foldl (fun number byte => number * 256 + byte.toNat) 0

/-- The last bytes of a number, most significant byte first. -/
def ofNat : (width : Nat) → Nat → Bytes
  | 0, _ => []
  | width + 1, number => ofNat width (number / 256) ++ [UInt8.ofNat number]

/-- Read a number of so many bytes as two's complement. -/
def signed (width number : Nat) : Int :=
  let size := Nat.pow 256 width
  if number < size / 2 then (number : Int) else (number : Int) - (size : Int)

/-- The two's complement of an integer in so many bytes. -/
def unsigned (width : Nat) (number : Int) : Nat :=
  (number % (Nat.pow 256 width : Int)).toNat

/-- The value of a hexadecimal digit; other characters count as zero. -/
def hexValue (digit : Char) : Nat :=
  if '0' ≤ digit ∧ digit ≤ '9' then digit.toNat - 0x30
  else if 'a' ≤ digit ∧ digit ≤ 'f' then digit.toNat - 0x57
  else if 'A' ≤ digit ∧ digit ≤ 'F' then digit.toNat - 0x37
  else 0

/-- The bytes that pairs of hexadecimal digits stand for. -/
def ofHex : List Char → Bytes
  | high :: low :: rest => UInt8.ofNat (hexValue high * 16 + hexValue low) :: ofHex rest
  | _ => []

/-- Split off so many bytes at the start, if there are as many. -/
def split? : Nat → Bytes → Option (Bytes × Bytes)
  | 0, rest => some ([], rest)
  | _ + 1, [] => none
  | count + 1, byte :: rest =>
      match split? count rest with
      | none => none
      | some (taken, after) => some (byte :: taken, after)

end Bytes

end KeyAudit
