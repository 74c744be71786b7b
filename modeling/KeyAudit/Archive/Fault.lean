import KeyAudit.Text.Utf8

namespace KeyAudit

/-!
# What can be wrong with an archive

An archive may be damaged, or packed in a way that cannot be undone.  Only some
of the faults are reported as faults of a class or an archive; the others stop
whoever reads.
-/

/-- Why deflated data is corrupt. -/
inductive InflateFault where
  | blockType
  | storedLengths
  | tooManySymbols
  | lengthCode
  | lengthRepeat
  | missingEnd
  | literalCode
  | distanceCode
  | literalWord
  | distanceWord
  | tooFarBack
  deriving Repr, DecidableEq

/-- The wording of a fault of deflated data. -/
def InflateFault.message (fault : InflateFault) : Text :=
  let reason : Text :=
    match fault with
    | .blockType => "invalid block type"
    | .storedLengths => "invalid stored block lengths"
    | .tooManySymbols => "too many length or distance symbols"
    | .lengthCode => "invalid code lengths set"
    | .lengthRepeat => "invalid bit length repeat"
    | .missingEnd => "invalid code -- missing end-of-block"
    | .literalCode => "invalid literal/lengths set"
    | .distanceCode => "invalid distances set"
    | .literalWord => "invalid literal/length code"
    | .distanceWord => "invalid distance code"
    | .tooFarBack => "invalid distance too far back"
  "Error -3 while decompressing data: " ++ reason

/-- Why data packed by a range coder cannot be unpacked. -/
inductive LzmaFault where
  | options
  | corrupt
  deriving Repr, DecidableEq

/-- The wording of a fault of data packed by a range coder. -/
def LzmaFault.message : LzmaFault → Text
  | .options => "Invalid or unsupported options"
  | .corrupt => "Corrupt input data"

/-- A number of an entry that stands in a field of its own if it is large. -/
inductive LargeNumber where
  | fileSize
  | packedSize
  | headerOffset
  deriving Repr, DecidableEq

/-- How a large number is named. -/
def LargeNumber.label : LargeNumber → Text
  | .fileSize => "File size"
  | .packedSize => "Compress size"
  | .headerOffset => "Header offset"

/-- What is wrong with an archive or an entry of it. -/
inductive ZipFault where
  | notArchive
  | manyDisks
  | directoryOffset
  | truncatedDirectory
  | directorySignature
  | extraField (kind size : Nat)
  | missingNumber (number : LargeNumber)
  | nameText (fault : Utf8Fault)
  | version (tenths : Nat)
  | noSuchOffset
  | offsetTooLarge
  | truncatedHeader
  | headerSignature
  | patched
  | strongEncryption
  | otherName (name : Text) (inHeader : Bytes)
  | overlap (name : Text)
  | encrypted (name : Text)
  | method
  | fileEnds
  | inflate (fault : InflateFault)
  | bzip2
  | lzma (fault : LzmaFault)
  | checkSum (name : Text)
  deriving Repr, DecidableEq

namespace ZipFault

/-- The wording of a fault. -/
def message : ZipFault → Text
  | .notArchive => "File is not a zip file"
  | .manyDisks => "zipfiles that span multiple disks are not supported"
  | .directoryOffset => "Bad offset for central directory"
  | .truncatedDirectory => "Truncated central directory"
  | .directorySignature => "Bad magic number for central directory"
  | .extraField kind size =>
      "Corrupt extra field " ++ Text.hex 4 kind ++ " (size=" ++ Text.ofNat size ++ ")"
  | .missingNumber number => "Corrupt zip64 extra field. " ++ number.label ++ " not found."
  | .nameText fault => fault.message
  | .version tenths =>
      "zip file version " ++ Text.ofNat (tenths / 10) ++ "." ++ Text.ofNat (tenths % 10)
  | .noSuchOffset => "[Errno 22] Invalid argument"
  | .offsetTooLarge => "cannot fit 'int' into an offset-sized integer"
  | .truncatedHeader => "Truncated file header"
  | .headerSignature => "Bad magic number for file header"
  | .patched => "compressed patched data (flag bit 5)"
  | .strongEncryption => "strong encryption (flag bit 6)"
  | .otherName name inHeader =>
      "File name in directory " ++ name.quoted ++ " and header " ++ inHeader.quoted ++ " differ."
  | .overlap name => "Overlapped entries: " ++ name.quoted ++ " (possible zip bomb)"
  | .encrypted name =>
      "File " ++ name.quoted ++ " is encrypted, password required for extraction"
  | .method => "That compression method is not supported"
  | .fileEnds => ""
  | .inflate fault => fault.message
  | .bzip2 => "Invalid data stream"
  | .lzma fault => fault.message
  | .checkSum name => "Bad CRC-32 for file " ++ name.quoted

/-- Whether a fault is reported, and does not stop who reads. -/
def isReported : ZipFault → Bool
  | .nameText _ | .version _ | .offsetTooLarge | .patched | .strongEncryption | .encrypted _
  | .method | .fileEnds | .inflate _ | .lzma _ => false
  | _ => true

end ZipFault

end KeyAudit
