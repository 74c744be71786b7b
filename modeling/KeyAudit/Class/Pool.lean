import KeyAudit.Class.Member
import KeyAudit.Number.Shortest

namespace KeyAudit

/-!
# Constant pools

A constant pool is a numbered list of slots.  Slot 0 and the slot after each
long or double entry hold nothing.  Looking an index up either gives what the
entries of the expected kinds say or names the index that is at fault.
-/

/-- The kinds of pool entries. -/
inductive PoolTag where
  | utf8 | integer | float | long | double | classRef | string | fieldRef | methodRef
  | interfaceMethodRef | nameAndType | methodHandle | methodType | dynamic | invokeDynamic
  | moduleRef | packageRef
  deriving Repr, DecidableEq

namespace PoolTag

/-- All kinds of pool entries. -/
def all : List PoolTag :=
  [.utf8, .integer, .float, .long, .double, .classRef, .string, .fieldRef, .methodRef,
    .interfaceMethodRef, .nameAndType, .methodHandle, .methodType, .dynamic, .invokeDynamic,
    .moduleRef, .packageRef]

/-- The byte that announces an entry of a kind. -/
def number : PoolTag → Nat
  | .utf8 => 1
  | .integer => 3
  | .float => 4
  | .long => 5
  | .double => 6
  | .classRef => 7
  | .string => 8
  | .fieldRef => 9
  | .methodRef => 10
  | .interfaceMethodRef => 11
  | .nameAndType => 12
  | .methodHandle => 15
  | .methodType => 16
  | .dynamic => 17
  | .invokeDynamic => 18
  | .moduleRef => 19
  | .packageRef => 20

/-- The kind that a byte announces. -/
def ofNumber? (number : Nat) : Option PoolTag :=
  all.find? fun tag => tag.number == number

/-- The name of a kind in messages. -/
def name : PoolTag → String
  | .utf8 => "UTF8"
  | .integer => "INTEGER"
  | .float => "FLOAT"
  | .long => "LONG"
  | .double => "DOUBLE"
  | .classRef => "CLASS"
  | .string => "STRING"
  | .fieldRef => "FIELDREF"
  | .methodRef => "METHODREF"
  | .interfaceMethodRef => "INTERFACE_METHODREF"
  | .nameAndType => "NAME_AND_TYPE"
  | .methodHandle => "METHOD_HANDLE"
  | .methodType => "METHOD_TYPE"
  | .dynamic => "DYNAMIC"
  | .invokeDynamic => "INVOKE_DYNAMIC"
  | .moduleRef => "MODULE"
  | .packageRef => "PACKAGE"

/-- Whether an entry of a kind takes two slots. -/
def isWide : PoolTag → Bool
  | .long | .double => true
  | _ => false

end PoolTag

/-- Why bytes are not a class, or an index does not lead to what it should. -/
inductive ClassFault where
  | truncated (needed offset : Nat)
  | notAClass (source : Text)
  | unknownTag (number index : Nat)
  | badUtf8 (index : Nat)
  | outOfRange (index : Int)
  | unusable (index : Int)
  | unexpectedTag (index : Int) (found : PoolTag) (expected : List PoolTag)
  | notLoadable (index : Int) (found : PoolTag)
  deriving Repr, DecidableEq

namespace ClassFault

/-- The wording of a class fault. -/
def message : ClassFault → Text
  | .truncated needed offset =>
      "truncated class file: need " ++ Text.ofNat needed ++ " bytes at offset " ++
        Text.ofNat offset
  | .notAClass source =>
      "not a class file: " ++ (if source.isEmpty then ("<bytes>" : Text) else source)
  | .unknownTag number index =>
      "unknown constant pool tag " ++ Text.ofNat number ++ " at index " ++ Text.ofNat index
  | .badUtf8 index =>
      "bad Utf8 constant at index " ++ Text.ofNat index
  | .outOfRange index =>
      "constant pool index " ++ Text.ofInt index ++ " out of range"
  | .unusable index =>
      "constant pool index " ++ Text.ofInt index ++ " is unusable"
  | .unexpectedTag index found expected =>
      "constant pool index " ++ Text.ofInt index ++ " is " ++ found.name ++ ", expected " ++
        Text.joinWith "/" (expected.map fun tag => (tag.name : Text))
  | .notLoadable index found =>
      "constant pool index " ++ Text.ofInt index ++ " (" ++ found.name ++ ") is not loadable"

end ClassFault

/-- One entry; references are indices into the same pool. -/
inductive PoolEntry where
  | utf8 (text : Text)
  | integer (value : Int)
  | float (bits : UInt32)
  | long (value : Int)
  | double (bits : UInt64)
  | classRef (name : Nat)
  | string (text : Nat)
  | fieldRef (owner nameAndType : Nat)
  | methodRef (owner nameAndType : Nat)
  | interfaceMethodRef (owner nameAndType : Nat)
  | nameAndType (name descriptor : Nat)
  | methodHandle (kind reference : Nat)
  | methodType (descriptor : Nat)
  | dynamic (bootstrap nameAndType : Nat)
  | invokeDynamic (bootstrap nameAndType : Nat)
  | moduleRef (name : Nat)
  | packageRef (name : Nat)
  deriving Repr, DecidableEq

/-- The kind of an entry. -/
def PoolEntry.tag : PoolEntry → PoolTag
  | .utf8 _ => .utf8
  | .integer _ => .integer
  | .float _ => .float
  | .long _ => .long
  | .double _ => .double
  | .classRef _ => .classRef
  | .string _ => .string
  | .fieldRef .. => .fieldRef
  | .methodRef .. => .methodRef
  | .interfaceMethodRef .. => .interfaceMethodRef
  | .nameAndType .. => .nameAndType
  | .methodHandle .. => .methodHandle
  | .methodType _ => .methodType
  | .dynamic .. => .dynamic
  | .invokeDynamic .. => .invokeDynamic
  | .moduleRef _ => .moduleRef
  | .packageRef _ => .packageRef

/-- The slots of a pool; an unusable slot holds nothing. -/
structure Pool where
  slots : List (Option PoolEntry)
  deriving Repr, DecidableEq

namespace Pool

/-- A pool without entries. -/
def empty : Pool := ⟨[none]⟩

/-- The number of slots. -/
def size (pool : Pool) : Nat := pool.slots.length

/-- The entry at an index. -/
def entry (pool : Pool) (index : Int) : Except ClassFault PoolEntry :=
  if index ≤ 0 then
    .error (.outOfRange index)
  else
    match pool.slots[index.toNat]? with
    | none => .error (.outOfRange index)
    | some none => .error (.unusable index)
    | some (some entry) => .ok entry

/-- The entry at an index, which has to be of one of the given kinds if there are any. -/
def entryOf (pool : Pool) (index : Int) (expected : List PoolTag) :
    Except ClassFault PoolEntry := do
  let entry ← pool.entry index
  if expected.isEmpty || expected.contains entry.tag then
    return entry
  else
    throw (.unexpectedTag index entry.tag expected)

/-- The text at an index. -/
def text (pool : Pool) (index : Int) : Except ClassFault Text := do
  match ← pool.entry index with
  | .utf8 text => return text
  | other => throw (.unexpectedTag index other.tag [.utf8])

/-- The name of the class at an index. -/
def className (pool : Pool) (index : Int) : Except ClassFault Text := do
  match ← pool.entry index with
  | .classRef name => pool.text name
  | other => throw (.unexpectedTag index other.tag [.classRef])

/-- Name and descriptor of a member at an index. -/
def nameAndType (pool : Pool) (index : Int) : Except ClassFault (Text × Text) := do
  match ← pool.entry index with
  | .nameAndType name descriptor =>
      let name ← pool.text name
      let descriptor ← pool.text descriptor
      return (name, descriptor)
  | other => throw (.unexpectedTag index other.tag [.nameAndType])

/-- The member of a class by its two indices; name and descriptor come first. -/
def memberOf (pool : Pool) (owner nameAndType : Nat) : Except ClassFault Member := do
  let (name, descriptor) ← pool.nameAndType nameAndType
  let owner ← pool.className owner
  return ⟨owner, name, descriptor⟩

/-- The field or method at an index. -/
def member (pool : Pool) (index : Int) : Except ClassFault Member := do
  match ← pool.entry index with
  | .fieldRef owner nameAndType => pool.memberOf owner nameAndType
  | .methodRef owner nameAndType => pool.memberOf owner nameAndType
  | .interfaceMethodRef owner nameAndType => pool.memberOf owner nameAndType
  | other =>
      throw (.unexpectedTag index other.tag [.fieldRef, .methodRef, .interfaceMethodRef])

/-- A member that a bootstrap method provides; the owner names the bootstrap method. -/
def dynamicOf (pool : Pool) (bootstrap nameAndType : Nat) : Except ClassFault Member := do
  let (name, descriptor) ← pool.nameAndType nameAndType
  return ⟨"<bootstrap:" ++ Text.ofNat bootstrap ++ ">", name, descriptor⟩

/-- The dynamic call site or constant at an index. -/
def dynamicMember (pool : Pool) (index : Int) : Except ClassFault Member := do
  match ← pool.entry index with
  | .invokeDynamic bootstrap nameAndType => pool.dynamicOf bootstrap nameAndType
  | .dynamic bootstrap nameAndType => pool.dynamicOf bootstrap nameAndType
  | other => throw (.unexpectedTag index other.tag [.invokeDynamic, .dynamic])

end Pool

/-- A constant that an instruction can push. -/
inductive Loadable where
  | string (text : Text)
  | integer (value : Int)
  | float (value : Double)
  | long (value : Int)
  | double (value : Double)
  | classLiteral (name : Text)
  | methodType (descriptor : Text)
  | methodHandle (kind reference : Nat)
  | dynamic (member : Member)
  deriving Repr, DecidableEq

namespace Loadable

/-- The kind of pool entry that a constant comes from. -/
def tag : Loadable → PoolTag
  | .string _ => .string
  | .integer _ => .integer
  | .float _ => .float
  | .long _ => .long
  | .double _ => .double
  | .classLiteral _ => .classRef
  | .methodType _ => .methodType
  | .methodHandle .. => .methodHandle
  | .dynamic _ => .dynamic

/-- The number of words that a constant takes on the operand stack. -/
def words : Loadable → Nat
  | .long _ | .double _ => 2
  | .dynamic member => if member.descriptor = "J" ∨ member.descriptor = "D" then 2 else 1
  | _ => 1

/-- The text of a string literal. -/
def string? : Loadable → Option Text
  | .string text => some text
  | _ => none

/-- How a constant is shown in a listing. -/
def label : Loadable → Text
  | .string text => text.quoted
  | .integer value => Text.ofInt value
  | .float value => value.toText
  | .long value => Text.ofInt value
  | .double value => value.toText
  | .classLiteral name => name.quoted
  | .methodType descriptor => descriptor.quoted
  | .methodHandle kind reference =>
      "(" ++ Text.ofNat kind ++ ", " ++ Text.ofNat reference ++ ")"
  | .dynamic member =>
      "MemberRef(owner=" ++ member.owner.quoted ++ ", name=" ++ member.name.quoted ++
        ", descriptor=" ++ member.descriptor.quoted ++ ")"

end Loadable

/-- The constant at an index that an instruction pushes. -/
def Pool.loadable (pool : Pool) (index : Int) : Except ClassFault Loadable := do
  match ← pool.entry index with
  | .string text => return .string (← pool.text text)
  | .integer value => return .integer value
  | .float bits => return .float (.ofSingleBits bits)
  | .long value => return .long value
  | .double bits => return .double (.ofBits bits)
  | .classRef name => return .classLiteral (← pool.text name)
  | .methodType descriptor => return .methodType (← pool.text descriptor)
  | .methodHandle kind reference => return .methodHandle kind reference
  | .dynamic bootstrap nameAndType => return .dynamic (← pool.dynamicOf bootstrap nameAndType)
  | other => throw (.notLoadable index other.tag)

end KeyAudit
