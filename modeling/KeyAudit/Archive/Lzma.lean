import KeyAudit.Archive.Bzip2
import KeyAudit.Archive.Fault

namespace KeyAudit

/-!
# Data packed by a range coder

Each decision narrows a range according to the chance of its outcomes, which is
kept for every context and adapts.  The decisions spell bytes, and lengths and
distances of bytes that came before; one of the last four distances can be used
again.  A distance that is greater than all others ends the data.
-/

/-- How data was packed. -/
structure LzmaOptions where
  /-- How many bits of the byte before tell the contexts of bytes apart. -/
  byteContext : Nat
  /-- How many bits of the position tell the contexts of bytes apart. -/
  bytePosition : Nat
  /-- How many bits of the position tell other contexts apart. -/
  position : Nat
  /-- How many of the last bytes can be repeated. -/
  window : Nat

/-- The options that five bytes stand for. -/
def LzmaOptions.ofBytes? (bytes : List UInt8) : Option LzmaOptions :=
  match bytes with
  | [contexts, first, second, third, fourth] =>
      let contexts := contexts.toNat
      let byteContext := contexts % 9
      let bytePosition := contexts / 9 % 5
      let window :=
        first.toNat + 0x100 * (second.toNat + 0x100 * (third.toNat + 0x100 * fourth.toNat))
      if 4 < contexts / 45 ∨ 4 < byteContext + bytePosition then
        none
      else
        some ⟨byteContext, bytePosition, contexts / 45, (max window 0x1000 + 15) / 16 * 16⟩
  | _ => none

/-- A state of unpacking. -/
structure LzmaState where
  options : LzmaOptions
  data : ByteArray
  position : Nat
  output : ByteArray
  range : UInt32
  code : UInt32
  /-- The chance of the outcome zero in each context, of 2048. -/
  chances : Array UInt32
  /-- What the last symbols were, as far as it matters. -/
  phase : Nat
  /-- The last four distances; the least distance is zero. -/
  distances : List Nat

/-- A part of unpacking. -/
abbrev Lzma :=
  Unpacker LzmaState LzmaFault

namespace Lzma

open Unpacker (corrupt iterate times)

/-! The contexts, in the order in which their chances are kept. -/

def matchContext (phase position : Nat) : Nat := 16 * phase + position

def againContext (phase : Nat) : Nat := 192 + phase

def olderContext (phase : Nat) : Nat := 204 + phase

def thirdContext (phase : Nat) : Nat := 216 + phase

def fourthContext (phase : Nat) : Nat := 228 + phase

def longContext (phase position : Nat) : Nat := 240 + 16 * phase + position

def slotContexts (lengthClass : Nat) : Nat := 432 + 64 * lengthClass

def middleContexts : Nat := 688

def alignContexts : Nat := 816

def newLengthContexts : Nat := 832

def againLengthContexts : Nat := 1346

def byteContexts (index : Nat) : Nat := 1860 + 0x300 * index

/-- The chances before the first decision. -/
def evenChances (options : LzmaOptions) : Array UInt32 :=
  Array.replicate (byteContexts (Nat.pow 2 (options.byteContext + options.bytePosition))) 1024

/-- Read a byte if the range has become small. -/
def widen : Lzma Unit := do
  let state ← get
  if state.range < 0x1000000 then
    match state.data.data[state.position]? with
    | none => throw .cut
    | some byte =>
        set { state with
          position := state.position + 1, range := state.range <<< 8
          code := (state.code <<< 8) ||| byte.toUInt32 }

/-- Decide in a context; the outcome becomes more likely there. -/
def decide (context : Nat) (state : LzmaState) : Nat × LzmaState :=
  let chance := state.chances[context]?.getD 1024
  let bound := (state.range >>> 11) * chance
  if state.code < bound then
    let chances := state.chances.setIfInBounds context (chance + ((2048 - chance) >>> 5))
    (0, { state with range := bound, chances })
  else
    let chances := state.chances.setIfInBounds context (chance - (chance >>> 5))
    (1, { state with range := state.range - bound, code := state.code - bound, chances })

/-- Decide where both outcomes are as likely. -/
def decideEvenly (state : LzmaState) : Nat × LzmaState :=
  let half := state.range >>> 1
  let rest := state.code - half
  if rest >>> 31 = 1 then
    (0, { state with range := half })
  else
    (1, { state with range := half, code := rest })

/-- The next decision in a context. -/
def decision (context : Nat) : Lzma Nat := do
  widen
  modifyGet (decide context)

/-- A number that is told without contexts, the high bit first. -/
def evenNumber : (width number : Nat) → Lzma Nat
  | 0, number => return number
  | width + 1, number => do
      widen
      let digit ← modifyGet decideEvenly
      evenNumber width (2 * number + digit)

/-- The node that decisions lead to, where each node is the context of the next decision. -/
def nodeFrom (contexts : Nat) : (width node : Nat) → Lzma Nat
  | 0, node => return node
  | width + 1, node => do
      nodeFrom contexts width (2 * node + (← decision (contexts + node)))

/-- A number of so many bits, the high bit first. -/
def number (contexts width : Nat) : Lzma Nat :=
  return (← nodeFrom contexts width 1) - Nat.pow 2 width

/-- A number of so many bits from a node on, the low bit first. -/
def lowFirst (contexts : Nat) : (width node : Nat) → Lzma Nat
  | 0, _ => return 0
  | width + 1, node => do
      let digit ← decision (contexts + node)
      return digit + 2 * (← lowFirst contexts width (2 * node + digit))

/-- The node of a byte that is told by where it differs from another. -/
def nodeAgainst (contexts other : Nat) : (width node : Nat) → Lzma Nat
  | 0, node => return node
  | width + 1, node => do
      let expected := (other >>> width) % 2
      let digit ← decision (contexts + 0x100 * (1 + expected) + node)
      if digit = expected then
        nodeAgainst contexts other width (2 * node + digit)
      else
        nodeFrom contexts width (2 * node + digit)

/-- The byte that stands so far before the end of the output, or zero before its start. -/
def byteBack (state : LzmaState) (distance : Nat) : UInt8 :=
  if distance < state.output.size then
    state.output.data[state.output.size - 1 - distance]?.getD 0
  else
    0

/-- Put out a byte of its own. -/
def literal : Lzma Unit := do
  let state ← get
  let options := state.options
  let inPosition := state.output.size % Nat.pow 2 options.bytePosition
  let before := (byteBack state 0).toNat >>> (8 - options.byteContext)
  let contexts := byteContexts (inPosition * Nat.pow 2 options.byteContext + before)
  let phase := state.phase
  let other := (byteBack state (state.distances.headD 0)).toNat
  let node ←
    if phase < 7 then nodeFrom contexts 8 1 else nodeAgainst contexts other 8 1
  let phase := if phase < 4 then 0 else if phase < 10 then phase - 3 else phase - 6
  modify fun state =>
    { state with output := state.output.push (UInt8.ofNat (node - 0x100)), phase }

/-- A length. -/
def length (contexts position : Nat) : Lzma Nat := do
  if (← decision contexts) = 0 then
    return 2 + (← number (contexts + 2 + 8 * position) 3)
  else if (← decision (contexts + 1)) = 0 then
    return 10 + (← number (contexts + 130 + 8 * position) 3)
  else
    return 18 + (← number (contexts + 258) 8)

/-- A distance that goes with a length. -/
def distance (length : Nat) : Lzma Nat := do
  let slot ← number (slotContexts (min (length - 2) 3)) 6
  if slot < 4 then
    return slot
  let width := slot / 2 - 1
  let least := (2 + slot % 2) * Nat.pow 2 width
  if slot < 14 then
    return least + (← lowFirst (middleContexts + least - slot - 1) width 1)
  else
    let high ← evenNumber (width - 4) 0
    return least + 16 * high + (← lowFirst alignContexts 4 1)

/-- The distance that ends the data. -/
def endDistance : Nat := 0xFFFFFFFF

/-- Repeat so many bytes from the last distance on. -/
def copy : Nat → Lzma Unit
  | 0 => return ()
  | count + 1 => do
      modify fun state =>
        let byte := byteBack state (state.distances.headD 0)
        { state with output := state.output.push byte }
      copy count

/-- Repeat bytes from a new distance on, unless the distance ends the data. -/
def newMatch (position : Nat) : Lzma (Unit ⊕ Unit) := do
  let length ← length newLengthContexts position
  let distance ← distance length
  if distance = endDistance then
    widen
    if (← get).code ≠ 0 then
      corrupt .corrupt
    return .inr ()
  if min (← get).output.size (← get).options.window ≤ distance then
    corrupt .corrupt
  modify fun state => { state with
    phase := if state.phase < 7 then 7 else 10, distances := distance :: state.distances.take 3 }
  copy length
  return .inl ()

/-- Which of the last distances is used again, and whether for more than one byte. -/
def distancePlace (phase position : Nat) : Lzma (Nat × Bool) := do
  if (← decision (olderContext phase)) = 0 then
    return (0, (← decision (longContext phase position)) = 1)
  else if (← decision (thirdContext phase)) = 0 then
    return (1, true)
  else
    return (2 + (← decision (fourthContext phase)), true)

/-- Repeat bytes from one of the last distances on. -/
def oldMatch (phase position : Nat) : Lzma Unit := do
  if (← get).output.isEmpty then
    corrupt .corrupt
  let (place, isLong) ← distancePlace phase position
  modify fun state =>
    match Bzip2.moveToFront? state.distances place with
    | none => state
    | some (_, distances) => { state with distances }
  let length ← if isLong then length againLengthContexts position else pure 1
  modify fun state => { state with
    phase := if 7 ≤ phase then 11 else if isLong then 8 else 9 }
  copy length

/-- What the next symbol stands for, up to the end of the data. -/
def symbolStep (_ : Unit) : Lzma (Unit ⊕ Unit) := do
  let phase := (← get).phase
  let position := (← get).output.size % Nat.pow 2 (← get).options.position
  if (← decision (matchContext phase position)) = 0 then
    literal
    return .inl ()
  else if (← decision (againContext phase)) = 0 then
    newMatch position
  else
    oldMatch phase position
    return .inl ()

/-- The next byte. -/
def byte : Lzma UInt8 := do
  let state ← get
  match state.data.data[state.position]? with
  | none => throw .cut
  | some byte =>
      set { state with position := state.position + 1 }
      return byte

/-- Put out what the data stands for. -/
def symbols : Lzma Unit := do
  if (← byte) ≠ 0 then
    corrupt .corrupt
  let code : UInt32 :=
    (← times byte 4).foldl (fun code byte => (code <<< 8) ||| byte.toUInt32) 0
  modify fun state => { state with code }
  -- a byte of the data lasts for fewer than 512 decisions, even for the most likely ones
  iterate symbolStep (512 * ((← get).data.size + 1)) ()

end Lzma

/-- What data packed by a range coder comes to, after its options. -/
def unrange (data : ByteArray) : Except LzmaFault Unpacked :=
  match data.toList with
  | _ :: _ :: low :: high :: rest =>
      let size := low.toNat + 0x100 * high.toNat
      if rest.length ≤ size then
        .ok ⟨.empty, false⟩
      else
        match LzmaOptions.ofBytes? (rest.take size) with
        | none => .error .options
        | some options =>
            Unpacker.run Lzma.symbols LzmaState.output
              ⟨options, data.extract (4 + size) data.size, 0, .empty, 0xFFFFFFFF, 0,
                Lzma.evenChances options, 0, [0, 0, 0, 0]⟩
  | _ => .ok ⟨.empty, false⟩

end KeyAudit
