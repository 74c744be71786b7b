import KeyAudit.Class.Cursor
import KeyAudit.Text.ModifiedUtf8

namespace KeyAudit

/-!
# Class files

A class file is read in order: versions, constant pool, names, interfaces,
fields and methods.  Of the fields and of all attributes other than the code of
methods only the lengths matter.  Bytes after the last method are not read.
-/

/--
A row of an exception table; a row without class catches everything.  The rows
of a class file hold no negative offsets.
-/
structure Handler where
  start : Int
  stop : Int
  target : Int
  catchType : Option Text
  deriving Repr, DecidableEq

/-- Whether a row covers the instruction at an offset. -/
def Handler.covers (handler : Handler) (offset : Nat) : Bool :=
  handler.start ≤ offset && offset < handler.stop

/-- The code of a method. -/
structure Body where
  maxStack : Nat
  maxLocals : Nat
  code : Bytes
  handlers : List Handler
  deriving Repr, DecidableEq

/-- A method of a class; abstract and native methods have no body. -/
structure Method where
  owner : Text
  name : Text
  descriptor : Text
  access : Nat
  body : Option Body
  deriving Repr, DecidableEq

namespace Method

/-- Name and descriptor. -/
def signature (method : Method) : Text :=
  method.name ++ method.descriptor

/-- Owner, name and descriptor. -/
def label (method : Method) : Text :=
  method.owner ++ "." ++ method.signature

/-- Whether the method belongs to the class and not to an object. -/
def isStatic (method : Method) : Bool :=
  method.access / 8 % 2 == 1

/-- A one-line description with the size of the code. -/
def summary (method : Method) : Text :=
  let size := match method.body with
    | none => 0
    | some body => body.code.length
  "MethodBody(" ++ method.label ++ ", code=" ++ Text.ofNat size ++ " bytes)"

end Method

/-- A class as far as the analysis needs it. -/
structure ClassFile where
  name : Text
  superName : Option Text
  access : Nat
  major : Nat
  minor : Nat
  pool : Pool
  methods : List Method
  source : Text
  deriving Repr, DecidableEq

namespace ClassFile

/-- The number that every class file begins with. -/
def magic : Nat := 0xCAFEBABE

/-- The name of the attribute that holds the code of a method. -/
def codeAttribute : Text := "Code"

/-- The methods that have code. -/
def methodsWithCode (file : ClassFile) : List (Method × Body) :=
  file.methods.filterMap fun method => method.body.map fun body => (method, body)

open Reading

/-- Read the entry at an index after its tag. -/
def readEntry (index : Nat) : PoolTag → Reading PoolEntry
  | .utf8 => do
      let length ← u2
      let bytes ← take length
      match ModifiedUtf8.decode? bytes with
      | some text => return .utf8 text
      | none => throw (.badUtf8 index)
  | .integer => return .integer (← signedNumber 4)
  | .float => return .float (.ofNat (← u4))
  | .long => return .long (← signedNumber 8)
  | .double => return .double (.ofNat (← number 8))
  | .classRef => return .classRef (← u2)
  | .string => return .string (← u2)
  | .fieldRef => return .fieldRef (← u2) (← u2)
  | .methodRef => return .methodRef (← u2) (← u2)
  | .interfaceMethodRef => return .interfaceMethodRef (← u2) (← u2)
  | .nameAndType => return .nameAndType (← u2) (← u2)
  | .methodHandle => return .methodHandle (← u1) (← u2)
  | .methodType => return .methodType (← u2)
  | .dynamic => return .dynamic (← u2) (← u2)
  | .invokeDynamic => return .invokeDynamic (← u2) (← u2)
  | .moduleRef => return .moduleRef (← u2)
  | .packageRef => return .packageRef (← u2)

/-- Read a tag and the entry at an index. -/
def readTagged (index : Nat) : Reading PoolEntry := do
  let number ← u1
  match PoolTag.ofNumber? number with
  | none => throw (.unknownTag number index)
  | some tag => readEntry index tag

/-- Read entries into so many slots from an index on; a wide entry leaves the next slot empty. -/
def readSlots : (count index : Nat) → Reading (List (Option PoolEntry))
  | 0, _ => return []
  | 1, index => return [some (← readTagged index)]
  | count + 2, index => do
      let entry ← readTagged index
      if entry.tag.isWide then
        return some entry :: none :: (← readSlots count (index + 2))
      else
        return some entry :: (← readSlots (count + 1) (index + 1))

/-- Read a constant pool. -/
def readPool : Reading Pool := do
  let count ← u2
  return ⟨none :: (← readSlots (count - 1) 1)⟩

/-- Read an attribute and forget it. -/
def skipAttribute : Reading Unit := do
  let _ ← u2
  let length ← u4
  let _ ← take length

/-- The class at an index, where index zero stands for none. -/
def optionalClass (pool : Pool) (index : Nat) : Except ClassFault (Option Text) :=
  if index = 0 then .ok none else (pool.className index).map some

/-- Read a row of an exception table. -/
def readHandler (pool : Pool) : Reading Handler := do
  let start ← u2
  let stop ← u2
  let target ← u2
  let catchIndex ← u2
  let catchType ← lookup (optionalClass pool catchIndex)
  return ⟨start, stop, target, catchType⟩

/-- Read the contents of a code attribute. -/
def readBody (pool : Pool) : Reading Body := do
  let maxStack ← u2
  let maxLocals ← u2
  let code ← take (← u4)
  let handlers ← counted (readHandler pool)
  let _ ← counted skipAttribute
  return ⟨maxStack, maxLocals, code, handlers⟩

/-- Read an attribute of a method; the code attribute gives the body. -/
def readMethodAttribute (pool : Pool) : Reading (Option Body) := do
  let name ← lookup (pool.text (← u2))
  let content ← take (← u4)
  if name = codeAttribute then
    return some (← lookup ((readBody pool).run content))
  else
    return none

/-- Read a method; the last code attribute counts. -/
def readMethod (pool : Pool) (owner : Text) : Reading Method := do
  let access ← u2
  let name ← lookup (pool.text (← u2))
  let descriptor ← lookup (pool.text (← u2))
  let bodies ← counted (readMethodAttribute pool)
  return ⟨owner, name, descriptor, access, (bodies.filterMap id).getLast?⟩

/-- Read a field and forget it. -/
def skipField : Reading Unit := do
  let _ ← take 6
  let _ ← counted skipAttribute

/-- Read a class that comes from the given source. -/
def read (source : Text) : Reading ClassFile := do
  if (← u4) ≠ magic then
    throw (.notAClass source)
  let minor ← u2
  let major ← u2
  let pool ← readPool
  let access ← u2
  let name ← lookup (pool.className (← u2))
  let superIndex ← u2
  let superName ← lookup (optionalClass pool superIndex)
  let _ ← counted u2
  let _ ← counted skipField
  let methods ← counted (readMethod pool name)
  return { name, superName, access, major, minor, pool, methods, source }

/-- The class that bytes from the given source hold. -/
def parse (bytes : Bytes) (source : Text) : Except ClassFault ClassFile :=
  (read source).run bytes

end ClassFile

end KeyAudit
