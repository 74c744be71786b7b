import KeyAudit.Frame.Analysis
import KeyAudit.Key.CallSite
import KeyAudit.Key.Shape
import KeyAudit.Report.Diagnostic

namespace KeyAudit

/-!
# The keys that classes use

At each reached call that takes a key, the word of the argument is looked up in
the frame before the call.  A known literal of the right shape is a used key;
everything else is passed over.
-/

/-- Why the keys of a method cannot be told. -/
inductive ExtractFault where
  | method (fault : MethodFault)
  /-- A call site names an argument by a negative position. -/
  | argumentPosition (position : Int)
  /-- A call site names an argument so far before the first that there is none. -/
  | noArgument
  deriving Repr, DecidableEq

/-- What counts as a use of a key. -/
structure Extractor where
  sites : CallSiteTable
  qualifier : Text
  limit : Nat
  deriving Repr, DecidableEq

/-- The keys of one class and what went wrong. -/
structure ClassKeys where
  unit : Text
  keys : List Text
  diagnostics : List Diagnostic
  analysed : Nat
  deriving Repr, DecidableEq

namespace Extractor

/-- The extractor of the built-in call sites and of wrappers. -/
def ofAllowLists (owners methods : List Text) (qualifier : Text) : Extractor :=
  ⟨.ofList (CallSite.ofAllowLists owners methods), qualifier, MethodFrames.defaultLimit⟩

/-- The parameter at a position; negative positions count from the last one. -/
def parameter (type : MethodType) (position : Int) : Except ExtractFault FieldType :=
  let position := if position < 0 then position + type.parameters.length else position
  if position < 0 then
    .error .noArgument
  else
    match type.parameters[position.toNat]? with
    | some parameter => .ok parameter
    | none => .error .noArgument

/-- The key of a word. -/
def keyOfWord? (extractor : Extractor) (word : Option Value) : Option Text :=
  match word with
  | some (.literal text) => Key.ofLiteral? extractor.qualifier text
  | _ => none

/-- The key that a call passes by the type of the called method and the frame before. -/
def keyOfCall?
    (extractor : Extractor)
    (type : MethodType)
    (site : CallSite)
    (frame : Frame) :
    Except ExtractFault (Option Text) := do
  if (type.parameters.length : Int) ≤ site.argument then
    return none
  if (← parameter type site.argument) ≠ .string then
    return none
  match type.argumentOffset? site.argument with
  | none => throw (.argumentPosition site.argument)
  | some offset =>
      let position := frame.depth + offset
      if position < type.argumentWords then
        return none
      return extractor.keyOfWord? frame.stack[position - type.argumentWords]?

/-- The key that an instruction passes by the frame before it. -/
def keyAt?
    (extractor : Extractor)
    (instruction : Instruction)
    (frame : Frame) :
    Except ExtractFault (Option Text) :=
  match instruction.operand.member? with
  | none => .ok none
  | some member =>
      if instruction.opcode.layout = .dynamicCall then
        .ok none
      else
        match MethodType.read? member.descriptor, extractor.sites.find? member with
        | some type, some site => extractor.keyOfCall? type site frame
        | _, _ => .ok none

/-- The keys at the reached invocations of a method. -/
def keysIn (extractor : Extractor) (frames : MethodFrames) : Except ExtractFault (List Text) := do
  let keys ← frames.invocations.mapM fun (instruction, frame) =>
    extractor.keyAt? instruction frame
  return Text.sortedDistinct (keys.filterMap id)

/-- The keys that a method uses; a method without code uses none. -/
def keysOfMethod
    (extractor : Extractor)
    (pool : Pool)
    (method : Method) :
    Except ExtractFault (List Text) :=
  match method.body with
  | none => .ok []
  | some _ => do
      let frames ← (MethodFrames.ofMethod pool method extractor.limit).mapError
        ExtractFault.method
      extractor.keysIn frames

/-- The class without keys. -/
def noKeys (file : ClassFile) : ClassKeys :=
  ⟨if file.source.isEmpty then file.name else file.source, [], [], 0⟩

/-- Add a method to the keys of its class; a method that cannot be analysed adds a warning. -/
def addMethod
    (extractor : Extractor)
    (pool : Pool)
    (found : ClassKeys)
    (method : Method) :
    Except ExtractFault ClassKeys :=
  match extractor.keysOfMethod pool method with
  | .ok keys =>
      .ok { found with
        keys := Text.sortedDistinct (found.keys ++ keys)
        analysed := found.analysed + 1 }
  | .error (.method fault) =>
      .ok { found with
        diagnostics := found.diagnostics ++
          [.ofFailure fault.toFailure found.unit method.signature] }
  | .error fault => .error fault

/-- The keys that the methods of a class use. -/
def keysOfClass (extractor : Extractor) (file : ClassFile) : Except ExtractFault ClassKeys :=
  (file.methodsWithCode.map Prod.fst).foldlM (extractor.addMethod file.pool) (noKeys file)

end Extractor

end KeyAudit
