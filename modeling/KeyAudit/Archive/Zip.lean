import KeyAudit.Archive.Inflate
import KeyAudit.Archive.Lzma
import KeyAudit.Tree.Basic

namespace KeyAudit

/-!
# Zip archives

An archive ends with a directory of its entries and a record that tells where the
directory is.  Each entry has a header of its own, followed by its bytes as they
are or packed, and a check sum tells whether they are damaged.
-/

namespace Zip

/-- One step of the check sum for one bit. -/
def sumStep (sum : UInt32) : UInt32 :=
  if sum &&& 1 = 1 then (sum >>> 1) ^^^ 0xEDB88320 else sum >>> 1

/-- The check sum of bytes. -/
def checkSum (bytes : ByteArray) : UInt32 :=
  let sum := bytes.foldl (fun sum byte =>
    sumStep <| sumStep <| sumStep <| sumStep <| sumStep <| sumStep <| sumStep <| sumStep <|
      sum ^^^ byte.toUInt32) 0xFFFFFFFF
  sum ^^^ 0xFFFFFFFF

/-- The number of so many bytes at an offset, the low byte first. -/
def field (data : ByteArray) (offset : Nat) : (width : Nat) → Nat
  | 0 => 0
  | width + 1 => (data.data[offset]?.getD 0).toNat + 256 * field data (offset + 1) width

/-- Whether a flag is set. -/
def hasFlag (flags place : Nat) : Bool :=
  flags / Nat.pow 2 place % 2 == 1

/-- The signature of the end of an archive. -/
def endSignature : Nat := 0x06054B50

/-- The signature of the end of a large archive. -/
def largeEndSignature : Nat := 0x06064B50

/-- The signature of the record that tells of the end of a large archive. -/
def locatorSignature : Nat := 0x07064B50

/-- The signature of an entry of the directory. -/
def entrySignature : Nat := 0x02014B50

/-- The signature of a header. -/
def headerSignature : Nat := 0x04034B50

/-- The size of the end of an archive without its comment. -/
def endSize : Nat := 22

/-- The size of the end of a large archive. -/
def largeEndSize : Nat := 56

/-- The size of the record that tells of the end of a large archive. -/
def locatorSize : Nat := 20

/-- The size of an entry of the directory without its name and its other fields. -/
def entrySize : Nat := 46

/-- The size of a header without its name and its other fields. -/
def headerSize : Nat := 30

/-- How far before the end of a file the end of an archive is looked for. -/
def longestComment : Nat := 0x10000

/-- The offset of the end of an archive. -/
def findEnd? (data : ByteArray) : Option Nat :=
  let last := data.size - endSize
  if data.size < endSize then
    none
  else if field data last 4 = endSignature ∧ field data (last + 20) 2 = 0 then
    some last
  else
    let places := (List.range (min (longestComment + endSize) data.size - 3)).map fun back =>
      data.size - 4 - back
    match places.find? fun place => field data place 4 == endSignature with
    | none => none
    | some place => if place ≤ last then some place else none

/-- What the end of an archive tells. -/
structure EndRecord where
  /-- Where the directory ends. -/
  directoryEnd : Nat
  directorySize : Nat
  /-- Where the directory begins, counted from where the archive begins. -/
  directoryOffset : Nat

/-- The end of an archive, also of a large one. -/
def readEnd (data : ByteArray) : Except ZipFault EndRecord := do
  match findEnd? data with
  | none => throw .notArchive
  | some place =>
      let small : EndRecord := ⟨place, field data (place + 12) 4, field data (place + 16) 4⟩
      let locator := place - locatorSize
      if place < locatorSize ∨ field data locator 4 ≠ locatorSignature then
        return small
      if field data (locator + 4) 4 ≠ 0 ∨ 1 < field data (locator + 16) 4 then
        throw .manyDisks
      if locator < largeEndSize then
        throw .notArchive
      let large := locator - largeEndSize
      if field data large 4 ≠ largeEndSignature then
        return small
      return ⟨large, field data (large + 40) 8, field data (large + 48) 8⟩

/-- The upper half of the code page of names that are not marked as UTF-8. -/
def oldNames : Array Char :=
  ("ÇüéâäàåçêëèïîìÄÅÉæÆôöòûùÿÖÜ¢£¥₧ƒáíóúñÑªº¿⌐¬½¼¡«»░▒▓│┤╡╢╖╕╣║╗╝╜╛┐└┴┬├─┼╞╟╚╔╩╦╠═╬╧╨╤╥╙╘╒╓╫╪┘┌█▄▌▐▀" ++
    "αßΓπΣσµτΦΘΩδ∞φε∩≡±≥≤⌠⌡÷≈°∙·√ⁿ²■\u00A0").toList.toArray

/-- The text of a name. -/
def nameOf (flags : Nat) (bytes : Bytes) : Except ZipFault Text :=
  if hasFlag flags 11 then
    (Utf8.decode bytes).mapError ZipFault.nameText
  else
    .ok <| bytes.map fun byte =>
      if byte.toNat < 0x80 then Utf8.point byte.toNat
      else CodePoint.ofChar (oldNames[byte.toNat - 0x80]?.getD ' ')

/-- The numbers of an entry that may be large. -/
structure Numbers where
  fileSize : Nat
  packedSize : Nat
  headerOffset : Nat

/-- A number if it is not large, or else the next one of the large numbers. -/
def largeNumber (number : LargeNumber) (value : Nat) (isLarge : Bool) (large : ByteArray) :
    Except ZipFault (Nat × ByteArray) :=
  if !isLarge then
    .ok (value, large)
  else if large.size < 8 then
    .error (.missingNumber number)
  else
    .ok (field large 0 8, large.extract 8 large.size)

/-- The numbers of an entry, with the large ones from a field of their own. -/
def Numbers.enlarge (numbers : Numbers) (large : ByteArray) : Except ZipFault Numbers := do
  let absent := 0xFFFFFFFF
  let (fileSize, large) ← largeNumber .fileSize numbers.fileSize
    (numbers.fileSize == absent || numbers.fileSize == 0xFFFFFFFFFFFFFFFF) large
  let (packedSize, large) ← largeNumber .packedSize numbers.packedSize
    (numbers.packedSize == absent) large
  let (headerOffset, _) ← largeNumber .headerOffset numbers.headerOffset
    (numbers.headerOffset == absent) large
  return ⟨fileSize, packedSize, headerOffset⟩

/-- The numbers of an entry after its extra fields; the number bounds the fields. -/
def Numbers.afterFields (numbers : Numbers) : Nat → ByteArray → Except ZipFault Numbers
  | 0, _ => return numbers
  | bound + 1, extra => do
      if extra.size < 4 then
        return numbers
      let kind := field extra 0 2
      let size := field extra 2 2
      if extra.size < size + 4 then
        throw (.extraField kind size)
      let numbers ← if kind = 1 then numbers.enlarge (extra.extract 4 (size + 4)) else pure numbers
      afterFields numbers bound (extra.extract (size + 4) extra.size)

/-- An entry as the directory lists it. -/
structure Listed where
  name : Text
  flags : Nat
  method : Nat
  sum : Nat
  fileSize : Nat
  packedSize : Nat
  /-- Where the header is. -/
  offset : Int

/-- The newest version whose archives can be read, in tenths. -/
def newestVersion : Nat := 63

/-- The entry at a place of a directory, and the place of the next one. -/
def listedAt (directory : ByteArray) (shift : Int) (place : Nat) :
    Except ZipFault (Listed × Nat) := do
  let fieldAt := fun offset width => field directory (place + offset) width
  if directory.size < place + entrySize then
    throw .truncatedDirectory
  if fieldAt 0 4 ≠ entrySignature then
    throw .directorySignature
  let nameEnd := place + entrySize + fieldAt 28 2
  let extraEnd := nameEnd + fieldAt 30 2
  let name ← nameOf (fieldAt 8 2) (directory.extract (place + entrySize) nameEnd).toList
  if newestVersion < fieldAt 6 1 then
    throw (.version (fieldAt 6 1))
  let extra := directory.extract nameEnd extraEnd
  let numbers ← Numbers.afterFields ⟨fieldAt 24 4, fieldAt 20 4, fieldAt 42 4⟩ extra.size extra
  return (⟨name, fieldAt 8 2, fieldAt 10 2, fieldAt 16 4, numbers.fileSize, numbers.packedSize,
    numbers.headerOffset + shift⟩, extraEnd + fieldAt 32 2)

/-- The entries of a directory from a place on; the number bounds the entries. -/
def listedFrom (directory : ByteArray) (shift : Int) : Nat → Nat → Except ZipFault (List Listed)
  | 0, _ => return []
  | bound + 1, place => do
      if directory.size ≤ place then
        return []
      let (listed, next) ← listedAt directory shift place
      let rest ← listedFrom directory shift bound next
      return listed :: rest

/-- Entries with where they have to end: where the next one or the directory begins. -/
def withStops (directory : Int) (entries : List Listed) : List (Listed × Int) :=
  let lastFirst := entries.zipIdx.mergeSort fun (first, _) (second, _) =>
    decide (second.offset ≤ first.offset)
  let stops := directory :: lastFirst.map fun (listed, _) => listed.offset
  let inOrder := (lastFirst.zip stops).mergeSort fun ((_, first), _) ((_, second), _) =>
    decide (first ≤ second)
  inOrder.map fun ((listed, _), stop) => (listed, stop)

/-- The bytes of an entry from where its packed bytes begin. -/
def unpack (data : ByteArray) (listed : Listed) (start : Nat) : Except ZipFault ByteArray := do
  let packed := data.extract start (start + listed.packedSize)
  let isWhole := packed.size == listed.packedSize
  if packed.isEmpty && !isWhole then
    throw .fileEnds
  let unpacked ←
    match listed.method with
    | 0 => pure ⟨packed, isWhole⟩
    | 8 => (inflate packed).mapError ZipFault.inflate
    | 12 => (unsort packed).mapError fun _ => ZipFault.bzip2
    | 14 => (unrange packed).mapError ZipFault.lzma
    | _ => throw .method
  let bytes := unpacked.bytes.extract 0 listed.fileSize
  if !unpacked.isComplete && !isWhole && bytes.size < listed.fileSize then
    throw .fileEnds
  return bytes

/-- The bytes of an entry, which has to end before a stop. -/
def bytesOf (data : ByteArray) (listed : Listed) (stop : Int) : Except ZipFault ByteArray := do
  if listed.offset < 0 then
    throw .noSuchOffset
  if 0x7FFFFFFFFFFFFFFF < listed.offset then
    throw .offsetTooLarge
  let header := listed.offset.toNat
  if data.size < header + headerSize then
    throw .truncatedHeader
  if field data header 4 ≠ headerSignature then
    throw .headerSignature
  let nameStart := header + headerSize
  let nameEnd := min (nameStart + field data (header + 26) 2) data.size
  let start := min (nameEnd + field data (header + 28) 2) data.size
  if hasFlag listed.flags 5 then
    throw .patched
  if hasFlag listed.flags 6 then
    throw .strongEncryption
  let inHeader := (data.extract nameStart nameEnd).toList
  if (← nameOf (field data (header + 6) 2) inHeader) ≠ listed.name then
    throw (.otherName listed.name inHeader)
  if stop < start + listed.packedSize then
    throw (.overlap listed.name)
  if hasFlag listed.flags 0 then
    throw (.encrypted (ArchiveEntry.shortName listed.name))
  unpack data listed start

/-- An entry with its bytes, if they fit their check sum. -/
def entryOf (data : ByteArray) (listed : Listed) (stop : Int) : ArchiveEntry :=
  match bytesOf data listed stop with
  | .error fault => ⟨ArchiveEntry.shortName listed.name, .faulty fault⟩
  | .ok bytes =>
      .ofStored listed.name
        (if (checkSum bytes).toNat = listed.sum then some bytes.toList else none)

/-- The entries of an archive. -/
def entries (data : ByteArray) : Except ZipFault (List ArchiveEntry) := do
  let record ← readEnd data
  let start : Int := record.directoryEnd - record.directorySize
  if start < 0 then
    throw .directoryOffset
  let directory := data.extract start.toNat (start.toNat + record.directorySize)
  -- other bytes may come before the archive
  let listed ← listedFrom directory (start - record.directoryOffset) directory.size 0
  return (withStops start listed).map fun (listed, stop) => entryOf data listed stop

end Zip

/-- The content of a file; archives are told by their end. -/
def Content.ofFile (bytes : ByteArray) : Content :=
  match Zip.entries bytes with
  | .ok entries => .archive bytes.toList entries
  | .error .notArchive => .file bytes.toList
  | .error fault => .badArchive bytes.toList fault

end KeyAudit
