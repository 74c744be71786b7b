import KeyAudit.Archive.Fault
import KeyAudit.Archive.Unpacker

namespace KeyAudit

/-!
# Deflated data

Deflated data is a sequence of blocks.  A block holds bytes as they are, or
symbols of two codes: bytes and lengths in the one, distances in the other.  A
length and a distance repeat bytes that came before.
-/

/-- A part of unpacking deflated data. -/
abbrev Inflate :=
  Unpacker Bits InflateFault

namespace Inflate

open Unpacker (corrupt iterate times)
open Bits (bit number put)

/-- The code of given lengths; a word that has no symbol is as short as can be. -/
def codeOf (lengths : List Nat) : PrefixCode :=
  .ofLengths (max 1 (lengths.foldl max 0)) lengths

/-- Whether each sequence of bits begins with a word. -/
def isComplete (code : PrefixCode) : Bool :=
  code.left? == some 0

/-- Whether a code can be used: it is complete, or has no word but a bit. -/
def isUsable (code : PrefixCode) : Bool :=
  isComplete code || code.left?.isSome && code.counts.length == 1

/-- The least value of each group of values and the number of bits that tell them apart. -/
def groups (widths : List Nat) (least : Nat) : List (Nat × Nat) :=
  match widths with
  | [] => []
  | width :: widths => (least, width) :: groups widths (least + Nat.pow 2 width)

/-- The lengths that the symbols from 257 on begin. -/
def lengthGroups : Array (Nat × Nat) :=
  let widths := List.replicate 8 0 ++ (List.range 5).flatMap fun width =>
    List.replicate 4 (width + 1)
  -- the greatest length has a symbol of its own
  ((groups widths 3).take 28 ++ [(258, 0)]).toArray

/-- The distances that the symbols begin. -/
def distanceGroups : Array (Nat × Nat) :=
  let widths := List.replicate 4 0 ++ (List.range 13).flatMap fun width =>
    List.replicate 2 (width + 1)
  (groups widths 1).toArray

/-- A value of the group that a symbol begins. -/
def valueOf (table : Array (Nat × Nat)) (symbol : Nat) (fault : InflateFault) : Inflate Nat := do
  match table[symbol]? with
  | none => corrupt fault
  | some (least, width) => return least + (← number width)

/-- Repeat so many bytes from a distance back. -/
def repeated (distance : Nat) : Nat → ByteArray → ByteArray
  | 0, output => output
  | count + 1, output =>
      repeated distance count (output.push (output.data[output.size - distance]?.getD 0))

/-- Repeat bytes whose distance is told next. -/
def reference (distances : PrefixCode) (length : Nat) : Inflate Unit := do
  match ← distances.symbol with
  | none => corrupt .distanceWord
  | some symbol =>
      let distance ← valueOf distanceGroups symbol .distanceWord
      if (← get).output.size < distance then
        corrupt .tooFarBack
      modify fun bits => { bits with output := repeated distance length bits.output }

/-- What the next symbol of a block stands for, up to the symbol that ends the block. -/
def symbolStep (literals distances : PrefixCode) (_ : Unit) : Inflate (Unit ⊕ Unit) := do
  match ← literals.symbol with
  | none => corrupt .literalWord
  | some symbol =>
      if symbol < 256 then
        put (UInt8.ofNat symbol)
        return .inl ()
      else if symbol = 256 then
        return .inr ()
      else
        let length ← valueOf lengthGroups (symbol - 257) .literalWord
        reference distances length
        return .inl ()

/-- The bytes of a block of symbols. -/
def symbolBlock (literals distances : PrefixCode) : Inflate Unit := do
  iterate (symbolStep literals distances) (← get).bound ()

/-- The bytes of a block that holds them as they are. -/
def plainBlock : Inflate Unit := do
  modify fun bits => { bits with position := (bits.position + 7) / 8 * 8 }
  let length ← number 16
  let complement ← number 16
  if length + complement ≠ 0xFFFF then
    corrupt .storedLengths
  let start := (← get).position / 8
  let stop := min (start + length) (← get).data.size
  modify fun bits =>
    { bits with position := 8 * stop, output := bits.output ++ bits.data.extract start stop }
  if stop < start + length then
    throw .cut

/-- The code of bytes and lengths that needs no description. -/
def fixedLiterals : PrefixCode :=
  codeOf (List.replicate 144 8 ++ List.replicate 112 9 ++ List.replicate 24 7 ++
    List.replicate 8 8)

/-- The code of distances that needs no description. -/
def fixedDistances : PrefixCode :=
  codeOf (List.replicate 32 5)

/-- The order in which the lengths of the code of lengths are given. -/
def lengthOrder : List Nat :=
  [16, 17, 18, 0, 8, 7, 9, 6, 10, 5, 11, 4, 12, 3, 13, 2, 14, 1, 15]

/-- The lengths of words, last one first, after the next symbol; some symbols repeat a length. -/
def lengthStep (code : PrefixCode) (total : Nat) (lengths : List Nat) :
    Inflate (List Nat ⊕ List Nat) := do
  if total ≤ lengths.length then
    return .inr lengths.reverse
  -- in a code without words each bit is the symbol zero
  let symbol := (← code.symbol).getD 0
  if symbol < 16 then
    return .inl (symbol :: lengths)
  let count ←
    match symbol with
    | 16 => pure (3 + (← number 2))
    | 17 => pure (3 + (← number 3))
    | _ => pure (11 + (← number 7))
  match if symbol = 16 then lengths.head? else some 0 with
  | none => corrupt .lengthRepeat
  | some length =>
      if total < lengths.length + count then
        corrupt .lengthRepeat
      return .inl (List.replicate count length ++ lengths)

/-- The codes that a block describes. -/
def describedCodes : Inflate (PrefixCode × PrefixCode) := do
  let literals := (← number 5) + 257
  let distances := (← number 5) + 1
  let given := (← number 4) + 4
  if 286 < literals ∨ 30 < distances then
    corrupt .tooManySymbols
  let widths := lengthOrder.zip (← times (number 3) given)
  let lengthCode := codeOf ((List.range 19).map fun symbol => (widths.lookup symbol).getD 0)
  if !isComplete lengthCode && !lengthCode.symbols.isEmpty then
    corrupt .lengthCode
  let total := literals + distances
  let lengths ← iterate (lengthStep lengthCode total) (total + 1) []
  if lengths[256]? = some 0 then
    corrupt .missingEnd
  let literalCode := codeOf (lengths.take literals)
  if !isUsable literalCode then
    corrupt .literalCode
  let distanceCode := codeOf (lengths.drop literals)
  if !isUsable distanceCode then
    corrupt .distanceCode
  return (literalCode, distanceCode)

/-- The bytes of the next block, up to the last one. -/
def blockStep (_ : Unit) : Inflate (Unit ⊕ Unit) := do
  let isLast ← bit
  match ← number 2 with
  | 0 => plainBlock
  | 1 => symbolBlock fixedLiterals fixedDistances
  | 2 =>
      let (literals, distances) ← describedCodes
      symbolBlock literals distances
  | _ => corrupt .blockType
  return if isLast = 1 then .inr () else .inl ()

end Inflate

/-- What deflated data comes to. -/
def inflate (data : ByteArray) : Except InflateFault Unpacked :=
  let bits := Bits.ofData true data
  Unpacker.run (Unpacker.iterate Inflate.blockStep bits.bound ()) Bits.output bits

end KeyAudit
