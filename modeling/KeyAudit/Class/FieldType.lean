import KeyAudit.Text.Quoted

namespace KeyAudit

/-!
# Types of fields and methods

A descriptor is the text form of a type.  A field type is a primitive type, a
class or an array; a method type lists its parameters between parentheses and
then its result.  Values of the types long and double take two words, all
others one.
-/

/-- Why a text is not a descriptor. -/
inductive DescriptorFault where
  | malformedMethod (text : Text)
  | malformedField (text : Text)
  deriving Repr, DecidableEq

namespace DescriptorFault

/-- The text that is not a descriptor. -/
def text : DescriptorFault → Text
  | .malformedMethod text => text
  | .malformedField text => text

/-- The wording of a descriptor fault. -/
def message : DescriptorFault → Text
  | .malformedMethod text => "malformed method descriptor " ++ text.quoted
  | .malformedField text => "malformed field descriptor " ++ text.quoted

end DescriptorFault

/-- A primitive type. -/
inductive Primitive where
  | byte | char | double | float | int | long | short | boolean
  deriving Repr, DecidableEq

namespace Primitive

/-- The letter of a primitive type. -/
def letter : Primitive → CodePoint
  | .byte => 'B'
  | .char => 'C'
  | .double => 'D'
  | .float => 'F'
  | .int => 'I'
  | .long => 'J'
  | .short => 'S'
  | .boolean => 'Z'

/-- All primitive types. -/
def all : List Primitive :=
  [.byte, .char, .double, .float, .int, .long, .short, .boolean]

/-- The primitive type of a letter. -/
def ofLetter? (point : CodePoint) : Option Primitive :=
  all.find? fun primitive => primitive.letter == point

end Primitive

/-- A type that a field, a parameter or a result can have. -/
inductive FieldType where
  | primitive (type : Primitive)
  | object (className : Text)
  | array (element : FieldType)
  deriving Repr, DecidableEq

namespace FieldType

/-- The class of string literals. -/
def string : FieldType :=
  .object "java/lang/String"

/-- The text form of a field type. -/
def descriptor : FieldType → Text
  | .primitive type => [type.letter]
  | .object className => CodePoint.ofChar 'L' :: className ++ [CodePoint.ofChar ';']
  | .array element => CodePoint.ofChar '[' :: element.descriptor

/-- The number of words that a value takes on the operand stack. -/
def words : FieldType → Nat
  | .primitive .long => 2
  | .primitive .double => 2
  | _ => 1

/-- The number of words that values take together. -/
def totalWords : List FieldType → Nat
  | [] => 0
  | type :: types => type.words + totalWords types

/-- Whether values are references. -/
def isReference : FieldType → Bool
  | .primitive _ => false
  | _ => true

/-- The class of an object type. -/
def className? : FieldType → Option Text
  | .object className => some className
  | _ => none

/-- A class name is not empty and has no semicolon. -/
def WellFormed : FieldType → Prop
  | .primitive _ => True
  | .object className => className ≠ [] ∧ CodePoint.ofChar ';' ∉ className
  | .array element => element.WellFormed

/-- Read a field type from the start of a text and return what follows it. -/
def read? : Text → Option (FieldType × Text)
  | [] => none
  | point :: rest =>
      if point = CodePoint.ofChar '[' then
        (read? rest).map fun (element, after) => (.array element, after)
      else if point = CodePoint.ofChar 'L' then
        let className := rest.takeWhile (· ≠ CodePoint.ofChar ';')
        match rest.dropWhile (· ≠ CodePoint.ofChar ';') with
        | [] => none
        | _ :: after =>
            if className.isEmpty then none else some (.object className, after)
      else
        (Primitive.ofLetter? point).map fun type => (.primitive type, rest)

/-- Read a text that is a field type as a whole. -/
def parse (text : Text) : Except DescriptorFault FieldType :=
  match read? text with
  | some (type, []) => .ok type
  | _ => .error (.malformedField text)

end FieldType

/-- The parameters and the result of a method; a method without result has none. -/
structure MethodType where
  parameters : List FieldType
  result : Option FieldType
  deriving Repr, DecidableEq

namespace MethodType

/-- The letter that stands for the absence of a result. -/
def void : Text := "V"

/-- The text form of a result. -/
def resultDescriptor : Option FieldType → Text
  | none => void
  | some type => type.descriptor

/-- The text form of a method type. -/
def descriptor (type : MethodType) : Text :=
  CodePoint.ofChar '(' ::
    (type.parameters.flatMap FieldType.descriptor ++
      CodePoint.ofChar ')' :: resultDescriptor type.result)

/-- The number of words of all arguments together. -/
def argumentWords (type : MethodType) : Nat :=
  FieldType.totalWords type.parameters

/-- The number of words of the result. -/
def resultWords (type : MethodType) : Nat :=
  match type.result with
  | none => 0
  | some type => type.words

/-- The number of words of the arguments before the one at a position. -/
def wordsBefore (type : MethodType) (position : Nat) : Nat :=
  FieldType.totalWords (type.parameters.take position)

/-- The first word of the argument at a position, counted from the first argument. -/
def argumentOffset? (type : MethodType) (position : Int) : Option Nat :=
  if 0 ≤ position ∧ position < type.parameters.length then
    some (type.wordsBefore position.toNat)
  else
    none

/--
Read field types up to the closing parenthesis and return what follows it.  The
first argument bounds the number of types.
-/
def readParameters? : Nat → Text → Option (List FieldType × Text)
  | 0, _ => none
  | _ + 1, [] => none
  | bound + 1, point :: rest =>
      if point = CodePoint.ofChar ')' then
        some ([], rest)
      else
        match FieldType.read? (point :: rest) with
        | none => none
        | some (type, after) =>
            (readParameters? bound after).map fun (types, tail) => (type :: types, tail)

/-- Read a result that is a text as a whole. -/
def readResult? (text : Text) : Option (Option FieldType) :=
  if text = void then
    some none
  else
    match FieldType.read? text with
    | some (type, []) => some (some type)
    | _ => none

/-- Read a text that is a method type as a whole. -/
def read? : Text → Option MethodType
  | [] => none
  | point :: rest =>
      if point = CodePoint.ofChar '(' then
        match readParameters? rest.length rest with
        | none => none
        | some (parameters, after) =>
            (readResult? after).map fun result => ⟨parameters, result⟩
      else
        none

/-- Read a method type, or say which text is none. -/
def parse (text : Text) : Except DescriptorFault MethodType :=
  match read? text with
  | some type => .ok type
  | none => .error (.malformedMethod text)

end MethodType

end KeyAudit
