namespace KeyAudit

/-!
# Unpacking

Packed data is read from its start, and bytes are put out on the way.  What was
put out counts also where the data breaks off, and corrupt data comes to nothing.
-/

/-- Why unpacking stops before the packed data says that it ends. -/
inductive UnpackStop (Fault : Type) where
  | cut
  | corrupt (fault : Fault)

/-- What packed data comes to. -/
structure Unpacked where
  bytes : ByteArray
  /-- Whether the data said where it ends. -/
  isComplete : Bool

/-- A part of unpacking that works on a state. -/
abbrev Unpacker (State Fault : Type) :=
  ExceptT (UnpackStop Fault) (StateM State)

namespace Unpacker

variable {State Fault Value Result : Type}

/-- Data that stands for nothing. -/
def corrupt (fault : Fault) : Unpacker State Fault Value :=
  throw (.corrupt fault)

/-- The values of a part that is done so many times. -/
def times (part : Unpacker State Fault Value) : Nat → Unpacker State Fault (List Value)
  | 0 => return []
  | count + 1 => do
      let first ← part
      let rest ← times part count
      return first :: rest

/-- Go from one value to the next until there is a result; the number bounds the values. -/
def iterate (next : Value → Unpacker State Fault (Value ⊕ Result)) :
    Nat → Value → Unpacker State Fault Result
  | 0, _ => throw .cut
  | bound + 1, value => do
      match ← next value with
      | .inl value => iterate next bound value
      | .inr result => return result

/-- What packed data comes to, where the output is a part of the state. -/
def run (unpacker : Unpacker State Fault Unit) (output : State → ByteArray) (state : State) :
    Except Fault Unpacked :=
  match StateT.run (ExceptT.run unpacker) state with
  | (.ok (), state) => .ok ⟨output state, true⟩
  | (.error .cut, state) => .ok ⟨output state, false⟩
  | (.error (.corrupt fault), _) => .error fault

end Unpacker

/-- Data that is read bit by bit, and the bytes that were put out. -/
structure Bits where
  data : ByteArray
  /-- Whether the low bit of a byte is the first one. -/
  lowFirst : Bool
  position : Nat
  output : ByteArray

namespace Bits

variable {Fault : Type}

/-- The start of data. -/
def ofData (lowFirst : Bool) (data : ByteArray) : Bits :=
  ⟨data, lowFirst, 0, .empty⟩

/-- A number that no count of bits, symbols or blocks of the data exceeds. -/
def bound (bits : Bits) : Nat :=
  8 * bits.data.size + 1

/-- The next bit. -/
def bit : Unpacker Bits Fault Nat := do
  let bits ← get
  match bits.data.data[bits.position / 8]? with
  | none => throw .cut
  | some byte =>
      set { bits with position := bits.position + 1 }
      let place := bits.position % 8
      return (byte.toNat >>> (if bits.lowFirst then place else 7 - place)) % 2

/-- The next number of so many bits. -/
def number (width : Nat) : Unpacker Bits Fault Nat := do
  let digits ← Unpacker.times bit width
  let digits := if (← get).lowFirst then digits.reverse else digits
  return digits.foldl (fun number digit => 2 * number + digit) 0

/-- Put a byte out. -/
def put (byte : UInt8) : Unpacker Bits Fault Unit :=
  modify fun bits => { bits with output := bits.output.push byte }

end Bits

/-- A code in which shorter words come before longer ones. -/
structure PrefixCode where
  /-- How many words there are of each length from one on. -/
  counts : List Nat
  /-- The symbols by length, and in one length by number. -/
  symbols : Array Nat

namespace PrefixCode

/-- The code in which each symbol has a word of the given length, or none for zero. -/
def ofLengths (longest : Nat) (lengths : List Nat) : PrefixCode :=
  let widths := (List.range longest).map (· + 1)
  let symbolsOf (width : Nat) : List Nat :=
    lengths.zipIdx.filterMap fun (length, symbol) =>
      if length = width then some symbol else none
  ⟨widths.map fun width => (symbolsOf width).length, (widths.flatMap symbolsOf).toArray⟩

/-- How many longest words are left to no symbol, unless there are too many symbols. -/
def left? (code : PrefixCode) : Option Nat :=
  code.counts.foldlM (fun left count => if 2 * left < count then none else some (2 * left - count)) 1

/-- Read a word bit by bit; `first` is the first word of the length and `index` its place. -/
def symbolFrom {Fault : Type} (code : PrefixCode) :
    (counts : List Nat) → (word first index : Nat) → Unpacker Bits Fault (Option Nat)
  | [], _, _, _ => return none
  | count :: counts, word, first, index => do
      let word := word + (← Bits.bit)
      if word < first + count then
        return code.symbols[index + (word - first)]?
      else
        symbolFrom code counts (2 * word) (2 * (first + count)) (index + count)

/-- The next symbol, or nothing if no word has the next bits. -/
def symbol {Fault : Type} (code : PrefixCode) : Unpacker Bits Fault (Option Nat) :=
  symbolFrom code code.counts 0 0 0

end PrefixCode

end KeyAudit
