import KeyAudit.Class.File
import KeyAudit.Proofs.Class.Cursor
import KeyAudit.Proofs.Class.Lookup

namespace KeyAudit

/-!
# Images of class files

An image is a class file in parts: numbers in the range of their fields, lists
that are short enough for their counts, and pool entries by their payloads.  It
has the bytes that the class-file format prescribes, and it describes a class
as far as the pool leads from its indices to entries of the right kinds.
-/

namespace Bytes

def short (value : UInt16) : Bytes :=
  ofNat 2 value.toNat

/-- A count of two bytes and then the items one after the other. -/
def counted (write : Item → Bytes) (items : List Item) : Bytes :=
  ofNat 2 items.length ++ items.flatMap write

end Bytes

/-- A list that a count of two bytes can announce. -/
abbrev ShortList (Item : Type) :=
  { items : List Item // items.length < 0x10000 }

def ShortList.nil : ShortList Item :=
  ⟨[], Nat.zero_lt_succ _⟩

/-- An entry of a constant pool; the payload of a text is one that decodes. -/
inductive ConstantImage where
  | utf8
      (payload : Bytes)
      (text : Text)
      (decodes : ModifiedUtf8.decode? payload = some text)
      (fits : payload.length < 0x10000)
  | integer (value : Int32)
  | float (bits : UInt32)
  | long (value : Int64)
  | double (bits : UInt64)
  | classRef (name : UInt16)
  | string (text : UInt16)
  | fieldRef (owner member : UInt16)
  | methodRef (owner member : UInt16)
  | interfaceMethodRef (owner member : UInt16)
  | nameAndType (name descriptor : UInt16)
  | methodHandle (kind : UInt8) (reference : UInt16)
  | methodType (descriptor : UInt16)
  | dynamic (bootstrap member : UInt16)
  | invokeDynamic (bootstrap member : UInt16)
  | moduleRef (name : UInt16)
  | packageRef (name : UInt16)

namespace ConstantImage

open Bytes

/-- The entry of a text that is one with its UTF-8. -/
def ofText
    (text : Text)
    (decodes : ModifiedUtf8.decode? (text.flatMap Utf8.encodePoint) = some text)
    (fits : (text.flatMap Utf8.encodePoint).length < 0x10000) : ConstantImage :=
  .utf8 (text.flatMap Utf8.encodePoint) text decodes fits

/-- The tag and the payload. -/
def bytes : ConstantImage → Bytes
  | .utf8 payload _ _ _ => [1] ++ (ofNat 2 payload.length ++ payload)
  | .integer value => [3] ++ ofNat 4 (unsigned 4 value.toInt)
  | .float bits => [4] ++ ofNat 4 bits.toNat
  | .long value => [5] ++ ofNat 8 (unsigned 8 value.toInt)
  | .double bits => [6] ++ ofNat 8 bits.toNat
  | .classRef name => [7] ++ short name
  | .string text => [8] ++ short text
  | .fieldRef owner member => [9] ++ (short owner ++ short member)
  | .methodRef owner member => [10] ++ (short owner ++ short member)
  | .interfaceMethodRef owner member =>
      [11] ++ (short owner ++ short member)
  | .nameAndType name descriptor => [12] ++ (short name ++ short descriptor)
  | .methodHandle kind reference => [15] ++ ([kind] ++ short reference)
  | .methodType descriptor => [16] ++ short descriptor
  | .dynamic bootstrap member =>
      [17] ++ (short bootstrap ++ short member)
  | .invokeDynamic bootstrap member =>
      [18] ++ (short bootstrap ++ short member)
  | .moduleRef name => [19] ++ short name
  | .packageRef name => [20] ++ short name

/-- The entry that an image is of. -/
def entry : ConstantImage → PoolEntry
  | .utf8 _ text _ _ => .utf8 text
  | .integer value => .integer value.toInt
  | .float bits => .float bits
  | .long value => .long value.toInt
  | .double bits => .double bits
  | .classRef name => .classRef name.toNat
  | .string text => .string text.toNat
  | .fieldRef owner member => .fieldRef owner.toNat member.toNat
  | .methodRef owner member => .methodRef owner.toNat member.toNat
  | .interfaceMethodRef owner member =>
      .interfaceMethodRef owner.toNat member.toNat
  | .nameAndType name descriptor => .nameAndType name.toNat descriptor.toNat
  | .methodHandle kind reference => .methodHandle kind.toNat reference.toNat
  | .methodType descriptor => .methodType descriptor.toNat
  | .dynamic bootstrap member =>
      .dynamic bootstrap.toNat member.toNat
  | .invokeDynamic bootstrap member =>
      .invokeDynamic bootstrap.toNat member.toNat
  | .moduleRef name => .moduleRef name.toNat
  | .packageRef name => .packageRef name.toNat

/-- The slots that an entry takes; that behind a long or a double is empty. -/
def slots : ConstantImage → List (Option PoolEntry)
  | .long value => [some (.long value.toInt), none]
  | .double bits => [some (.double bits), none]
  | constant => [some constant.entry]

end ConstantImage

/-- An attribute by its name and its content. -/
structure AttributeImage where
  name : UInt16
  content : Bytes
  fits : content.length < 0x100000000

def AttributeImage.bytes (image : AttributeImage) : Bytes :=
  .short image.name ++ (.ofNat 4 image.content.length ++ image.content)

structure FieldImage where
  access : UInt16
  name : UInt16
  descriptor : UInt16
  attributes : ShortList AttributeImage

def FieldImage.bytes (image : FieldImage) : Bytes :=
  (.short image.access ++ .short image.name ++ .short image.descriptor) ++
    .counted AttributeImage.bytes image.attributes.val

/-- A row of an exception table; the index of what it catches may be zero. -/
structure HandlerImage where
  start : UInt16
  stop : UInt16
  target : UInt16
  catchIndex : UInt16

def HandlerImage.bytes (image : HandlerImage) : Bytes :=
  .short image.start ++ (.short image.stop ++ (.short image.target ++
    .short image.catchIndex))

/-- The content of a code attribute. -/
structure BodyImage where
  maxStack : UInt16
  maxLocals : UInt16
  code : Bytes
  handlers : ShortList HandlerImage
  attributes : ShortList AttributeImage
  fits : code.length < 0x100000000

def BodyImage.bytes (image : BodyImage) : Bytes :=
  .short image.maxStack ++ (.short image.maxLocals ++
    (.ofNat 4 image.code.length ++ (image.code ++
      (.counted HandlerImage.bytes image.handlers.val ++
        .counted AttributeImage.bytes image.attributes.val))))

/-- A code attribute, with the index of its name. -/
structure CodeImage where
  name : UInt16
  body : BodyImage
  fits : body.bytes.length < 0x100000000

def CodeImage.asAttribute (image : CodeImage) : AttributeImage :=
  ⟨image.name, image.body.bytes, image.fits⟩

/-- A method with other attributes before and after its code. -/
structure MethodImage where
  access : UInt16
  name : UInt16
  descriptor : UInt16
  before : List AttributeImage
  code : Option CodeImage
  after : List AttributeImage
  fits : before.length + code.toList.length + after.length < 0x10000

def MethodImage.attributes (image : MethodImage) : List AttributeImage :=
  image.before ++ (image.code.toList.map CodeImage.asAttribute ++ image.after)

def MethodImage.bytes (image : MethodImage) : Bytes :=
  .short image.access ++ (.short image.name ++ (.short image.descriptor ++
    .counted AttributeImage.bytes image.attributes))

/-- A class file in parts. -/
structure ClassImage where
  minor : UInt16
  major : UInt16
  constants : List ConstantImage
  access : UInt16
  thisIndex : UInt16
  superIndex : UInt16
  interfaces : ShortList UInt16
  fields : ShortList FieldImage
  methods : ShortList MethodImage
  fits : (constants.flatMap ConstantImage.slots).length + 1 < 0x10000

namespace ClassImage

/-- The pool of a class; its first slot is always empty. -/
def pool (image : ClassImage) : Pool :=
  ⟨none :: image.constants.flatMap ConstantImage.slots⟩

/-- The entries after the number of slots. -/
def poolBytes (image : ClassImage) : Bytes :=
  .ofNat 2 image.pool.size ++ image.constants.flatMap ConstantImage.bytes

def bytes (image : ClassImage) : Bytes :=
  [0xCA, 0xFE, 0xBA, 0xBE] ++ (.short image.minor ++ (.short image.major ++
    (image.poolBytes ++ (.short image.access ++ (.short image.thisIndex ++
      (.short image.superIndex ++
        (.counted Bytes.short image.interfaces.val ++
          (.counted FieldImage.bytes image.fields.val ++
            .counted MethodImage.bytes image.methods.val))))))))

end ClassImage

section Descriptions

variable (pool : Pool)

/-- Index zero stands for no class, any other one has to lead to one. -/
def Pool.HasOptionalClass (index : Nat) : Option Text → Prop
  | none => index = 0
  | some name => pool.HasClass index name

structure HandlerImage.Describes
    (image : HandlerImage)
    (handler : Handler) : Prop where
  start : handler.start = image.start.toNat
  stop : handler.stop = image.stop.toNat
  target : handler.target = image.target.toNat
  catchType : pool.HasOptionalClass image.catchIndex.toNat handler.catchType

structure BodyImage.Describes
    (image : BodyImage)
    (body : Body) : Prop where
  maxStack : body.maxStack = image.maxStack.toNat
  maxLocals : body.maxLocals = image.maxLocals.toNat
  code : body.code = image.code
  handlers :
    List.Forall₂ (HandlerImage.Describes pool) image.handlers.val
      body.handlers

/-- A method is described if also the names of all its attributes are. -/
structure MethodImage.Describes
    (owner : Text)
    (image : MethodImage)
    (method : Method) : Prop where
  owner : method.owner = owner
  name : pool.HasText image.name.toNat method.name
  descriptor : pool.HasText image.descriptor.toNat method.descriptor
  access : method.access = image.access.toNat
  body :
    Option.Rel (fun code body => code.body.Describes pool body)
      image.code method.body
  codeName : ∀ code ∈ image.code, pool.HasText code.name.toNat "Code"
  otherNames :
    ∀ other ∈ image.before ++ image.after,
      ∃ name, pool.HasText other.name.toNat name ∧ name ≠ "Code"

/-- An image describes a class that comes from a source. -/
structure ClassImage.Describes
    (source : Text)
    (image : ClassImage)
    (file : ClassFile) : Prop where
  pool : file.pool = image.pool
  name : image.pool.HasClass image.thisIndex.toNat file.name
  superName :
    image.pool.HasOptionalClass image.superIndex.toNat file.superName
  access : file.access = image.access.toNat
  major : file.major = image.major.toNat
  minor : file.minor = image.minor.toNat
  methods :
    List.Forall₂ (MethodImage.Describes image.pool file.name)
      image.methods.val file.methods
  source : file.source = source

end Descriptions

end KeyAudit
