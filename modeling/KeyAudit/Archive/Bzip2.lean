import KeyAudit.Archive.Unpacker

namespace KeyAudit

/-!
# Data packed by sorting

A block of bytes is packed in stages: long runs are shortened, the rotations of
the block are sorted and the last byte of each is kept, each byte is replaced by
its place among the bytes seen last, and the places are written in several codes,
of which another may be chosen after every 50 symbols.
-/

/-- A part of unpacking data packed by sorting. -/
abbrev Bzip2 :=
  Unpacker Bits Unit

namespace Bzip2

open Unpacker (corrupt iterate times)
open Bits (bit number)

/-- Bytes that have to come next. -/
def expect : List Nat → Bzip2 Unit
  | [] => return ()
  | byte :: bytes => do
      if (← number 8) ≠ byte then
        corrupt ()
      expect bytes

/-- The bytes that a block uses, told in rows of 16. -/
def usedBytes : Bzip2 (List UInt8) := do
  let rows ← times bit 16
  let marks ← rows.mapM fun row =>
    if row = 1 then times bit 16 else return List.replicate 16 0
  return marks.flatten.zipIdx.filterMap fun (mark, byte) =>
    if mark = 1 then some (UInt8.ofNat byte) else none

/-- The item at a place, and the items with that one in front. -/
def moveToFront? {Item : Type} (items : List Item) (place : Nat) : Option (Item × List Item) :=
  items[place]?.map fun item => (item, item :: items.eraseIdx place)

/-- The items at places, each of which moves its item to the front. -/
def itemsAt {Item : Type} (items : List Item) : List Nat → List Item
  | [] => []
  | place :: places =>
      match moveToFront? items place with
      | none => []
      | some (item, items) => item :: itemsAt items places

/-- A number below a limit, told by as many ones. -/
def unary (limit : Nat) : Bzip2 Nat :=
  iterate (fun count => do
    if (← bit) = 0 then
      return .inr count
    else if limit ≤ count + 1 then
      corrupt ()
    else
      return .inl (count + 1)) (limit + 1) 0

/-- The most selectors that a block can use. -/
def mostSelectors : Nat := 18002

/-- Which of so many codes is used for each 50 symbols. -/
def selectors (codes : Nat) : Bzip2 (Array Nat) := do
  let count ← number 15
  if count = 0 then
    corrupt ()
  let places ← times (unary codes) count
  return (itemsAt (List.range codes) (places.take mostSelectors)).toArray

/-- The longest word of a code. -/
def longestWord : Nat := 20

/-- The length of a word, told by steps from another length. -/
def lengthFrom (length : Nat) : Bzip2 Nat := do
  iterate (fun length => do
    if length < 1 ∨ longestWord < length then
      corrupt ()
    if (← bit) = 0 then
      return .inr length
    else if (← bit) = 0 then
      return .inl (length + 1)
    else
      return .inl (length - 1)) (← get).bound length

/-- The lengths of so many words, each told from the one before. -/
def lengthsFrom : (count length : Nat) → Bzip2 (List Nat)
  | 0, _ => return []
  | count + 1, length => do
      let length ← lengthFrom length
      let lengths ← lengthsFrom count length
      return length :: lengths

/-- A code for so many symbols. -/
def readCode (symbols : Nat) : Bzip2 PrefixCode := do
  let lengths ← lengthsFrom symbols (← number 5)
  return .ofLengths longestWord lengths

/-- The last bytes of rotations as far as they are known. -/
structure Column where
  bytes : ByteArray
  /-- How many symbols were read. -/
  symbols : Nat
  /-- The bytes, those seen last first. -/
  recent : List UInt8
  /-- How often the byte seen last is to be repeated. -/
  run : Nat
  /-- What the next digit of the run counts. -/
  weight : Nat

/-- The weight from which on a run is too long. -/
def greatestWeight : Nat := 2 * 1024 * 1024

/-- A byte so many times after others. -/
def pushTimes (byte : UInt8) : Nat → ByteArray → ByteArray
  | 0, bytes => bytes
  | count + 1, bytes => pushTimes byte count (bytes.push byte)

/-- The next symbol of a block: a digit of a run, the place of a byte, or the end. -/
def columnStep (codes : Array PrefixCode) (chosen : Array Nat) (last limit : Nat)
    (column : Column) : Bzip2 (Column ⊕ ByteArray) := do
  match chosen[column.symbols / 50]?.bind fun place => codes[place]? with
  | none => corrupt ()
  | some code =>
      match ← code.symbol with
      | none =>
          -- a word ends at the bit after the longest
          let _ ← bit
          corrupt ()
      | some symbol =>
          let symbols := column.symbols + 1
          if symbol < 2 then
            if greatestWeight ≤ column.weight then
              corrupt ()
            return .inl { column with
              symbols, run := column.run + (symbol + 1) * column.weight
              weight := 2 * column.weight }
          if limit < column.bytes.size + column.run then
            corrupt ()
          let bytes := pushTimes (column.recent.headD 0) column.run column.bytes
          if symbol = last then
            return .inr bytes
          match moveToFront? column.recent (symbol - 1) with
          | none => corrupt ()
          | some (byte, recent) =>
              if limit ≤ bytes.size then
                corrupt ()
              return .inl ⟨bytes.push byte, symbols, recent, 0, 1⟩

/-- The place of each sorted byte in the column. -/
def sortedPlaces (column : ByteArray) : Array Nat :=
  let byByte := (List.range column.size).foldl (fun places place =>
    places.modify (column.data[place]?.getD 0).toNat (·.push place)) (Array.replicate 256 #[])
  byByte.foldl (· ++ ·) #[]

/-- So many bytes of a rotation, each found by the place of the one before. -/
def rotation (column : ByteArray) (places : Array Nat) : (count place : Nat) → ByteArray → ByteArray
  | 0, _, bytes => bytes
  | count + 1, place, bytes =>
      rotation column places count (places[place]?.getD 0)
        (bytes.push (column.data[place]?.getD 0))

/-- The distances between bytes that old blocks have changed. -/
def oldDistances : Array Nat :=
  #[619, 720, 127, 481, 931, 816, 813, 233, 566, 247, 985, 724, 205, 454, 863, 491, 741, 242, 949,
    214, 733, 859, 335, 708, 621, 574, 73, 654, 730, 472, 419, 436, 278, 496, 867, 210, 399, 680,
    480, 51, 878, 465, 811, 169, 869, 675, 611, 697, 867, 561, 862, 687, 507, 283, 482, 129, 807,
    591, 733, 623, 150, 238, 59, 379, 684, 877, 625, 169, 643, 105, 170, 607, 520, 932, 727, 476,
    693, 425, 174, 647, 73, 122, 335, 530, 442, 853, 695, 249, 445, 515, 909, 545, 703, 919, 874,
    474, 882, 500, 594, 612, 641, 801, 220, 162, 819, 984, 589, 513, 495, 799, 161, 604, 958, 533,
    221, 400, 386, 867, 600, 782, 382, 596, 414, 171, 516, 375, 682, 485, 911, 276, 98, 553, 163,
    354, 666, 933, 424, 341, 533, 870, 227, 730, 475, 186, 263, 647, 537, 686, 600, 224, 469, 68,
    770, 919, 190, 373, 294, 822, 808, 206, 184, 943, 795, 384, 383, 461, 404, 758, 839, 887, 715,
    67, 618, 276, 204, 918, 873, 777, 604, 560, 951, 160, 578, 722, 79, 804, 96, 409, 713, 940,
    652, 934, 970, 447, 318, 353, 859, 672, 112, 785, 645, 863, 803, 350, 139, 93, 354, 99, 820,
    908, 609, 772, 154, 274, 580, 184, 79, 626, 630, 742, 653, 282, 762, 623, 680, 81, 927, 626,
    789, 125, 411, 521, 938, 300, 821, 78, 343, 175, 128, 250, 170, 774, 972, 275, 999, 639, 495,
    78, 352, 126, 857, 956, 358, 619, 580, 124, 737, 594, 701, 612, 669, 112, 134, 694, 363, 992,
    809, 743, 168, 974, 944, 375, 748, 52, 600, 747, 642, 182, 862, 81, 344, 805, 988, 739, 511,
    655, 814, 334, 249, 515, 897, 955, 664, 981, 649, 113, 974, 459, 893, 228, 433, 837, 553, 268,
    926, 240, 102, 654, 459, 51, 686, 754, 806, 760, 493, 403, 415, 394, 687, 700, 946, 670, 656,
    610, 738, 392, 760, 799, 887, 653, 978, 321, 576, 617, 626, 502, 894, 679, 243, 440, 680, 879,
    194, 572, 640, 724, 926, 56, 204, 700, 707, 151, 457, 449, 797, 195, 791, 558, 945, 679, 297,
    59, 87, 824, 713, 663, 412, 693, 342, 606, 134, 108, 571, 364, 631, 212, 174, 643, 304, 329,
    343, 97, 430, 751, 497, 314, 983, 374, 822, 928, 140, 206, 73, 263, 980, 736, 876, 478, 430,
    305, 170, 514, 364, 692, 829, 82, 855, 953, 676, 246, 369, 970, 294, 750, 807, 827, 150, 790,
    288, 923, 804, 378, 215, 828, 592, 281, 565, 555, 710, 82, 896, 831, 547, 261, 524, 462, 293,
    465, 502, 56, 661, 821, 976, 991, 658, 869, 905, 758, 745, 193, 768, 550, 608, 933, 378, 286,
    215, 979, 792, 961, 61, 688, 793, 644, 986, 403, 106, 366, 905, 644, 372, 567, 466, 434, 645,
    210, 389, 550, 919, 135, 780, 773, 635, 389, 707, 100, 626, 958, 165, 504, 920, 176, 193, 713,
    857, 265, 203, 50, 668, 108, 645, 990, 626, 197, 510, 357, 358, 850, 858, 364, 936, 638]

/-- Change a bit of some bytes back, as old blocks need it. -/
def restoreOld (bytes : ByteArray) : ByteArray :=
  let step := fun ((left, index, bytes) : Nat × Nat × ByteArray) (byte : UInt8) =>
    let (left, index) :=
      if left = 0 then (oldDistances[index]?.getD 0, (index + 1) % 512) else (left, index)
    (left - 1, index, bytes.push (if left = 2 then byte ^^^ 1 else byte))
  (bytes.foldl step (0, 0, .empty)).2.2

/-- Bytes with their long runs: after four equal bytes comes the number of further ones. -/
def lengthen? (bytes : ByteArray) : Option ByteArray :=
  let step := fun ((last, run, bytes) : UInt8 × Nat × ByteArray) (byte : UInt8) =>
    if run = 4 then
      (last, 0, pushTimes last byte.toNat bytes)
    else
      (byte, if run ≠ 0 ∧ byte = last then run + 1 else 1, bytes.push byte)
  let (_, run, bytes) := bytes.foldl step (0, 0, .empty)
  if run = 4 then none else some bytes

/-- One step of the check sum for one bit. -/
def sumStep (sum : UInt32) : UInt32 :=
  if sum &&& 0x80000000 = 0 then sum <<< 1 else (sum <<< 1) ^^^ 0x04C11DB7

/-- The check sum of bytes. -/
def checkSum (bytes : ByteArray) : UInt32 :=
  let sum := bytes.foldl (fun sum byte =>
    sumStep <| sumStep <| sumStep <| sumStep <| sumStep <| sumStep <| sumStep <| sumStep <|
      sum ^^^ (byte.toUInt32 <<< 24)) 0xFFFFFFFF
  sum ^^^ 0xFFFFFFFF

/-- The check sum of blocks with one more block. -/
def addSum (sum blockSum : UInt32) : UInt32 :=
  ((sum <<< 1) ||| (sum >>> 31)) ^^^ blockSum

/-- Put out the bytes of a block of at most so many; its check sum is given back. -/
def block (limit : Nat) : Bzip2 UInt32 := do
  let sum ← number 32
  let isOld ← bit
  let origin ← number 24
  if limit + 10 < origin then
    corrupt ()
  let used ← usedBytes
  if used.isEmpty then
    corrupt ()
  let symbols := used.length + 2
  let codeCount ← number 3
  if codeCount < 2 ∨ 6 < codeCount then
    corrupt ()
  let chosen ← selectors codeCount
  let codes ← times (readCode symbols) codeCount
  let column ← iterate (columnStep codes.toArray chosen (symbols - 1) limit) (← get).bound
    ⟨.empty, 0, used, 0, 1⟩
  if column.size ≤ origin then
    corrupt ()
  let places := sortedPlaces column
  let bytes := rotation column places column.size (places[origin]?.getD 0) .empty
  match lengthen? (if isOld = 1 then restoreOld bytes else bytes) with
  | none => corrupt ()
  | some bytes =>
      modify fun bits => { bits with output := bits.output ++ bytes }
      if (checkSum bytes).toNat ≠ sum then
        corrupt ()
      return checkSum bytes

/-- The next block with its check sum added to a sum, or the end. -/
def blockStep (limit : Nat) (sum : UInt32) : Bzip2 (UInt32 ⊕ Unit) := do
  match ← number 8 with
  | 0x31 =>
      expect [0x41, 0x59, 0x26, 0x53, 0x59]
      return .inl (addSum sum (← block limit))
  | 0x17 =>
      expect [0x72, 0x45, 0x38, 0x50, 0x90]
      if (← number 32) ≠ sum.toNat then
        corrupt ()
      return .inr ()
  | _ => corrupt ()

/-- Put out all blocks. -/
def blocks : Bzip2 Unit := do
  expect [0x42, 0x5A, 0x68]
  let level ← number 8
  if level < 0x31 ∨ 0x39 < level then
    corrupt ()
  iterate (blockStep (100000 * (level - 0x30))) (← get).bound 0

end Bzip2

/-- What data packed by sorting comes to. -/
def unsort (data : ByteArray) : Except Unit Unpacked :=
  Unpacker.run Bzip2.blocks Bits.output (.ofData false data)

end KeyAudit
