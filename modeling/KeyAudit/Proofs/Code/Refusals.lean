import KeyAudit.Proofs.Class.Resolution
import KeyAudit.Proofs.Code.Edges

namespace KeyAudit

/-!
# Why code is refused

A lookup that fails says so of an index of the pool.  Decoding refuses code with
such a fault only at an offset, it names a jump by the mnemonic of a row, and a
method that has code is never said to have none.
-/

open Outcome

/-- A fault that says what is wrong with an index of a pool. -/
def ClassFault.IsLookup : ClassFault → Prop
  | .outOfRange _ | .unusable _ | .unexpectedTag .. | .notLoadable .. => True
  | _ => False

namespace Pool

theorem Explains.isLookup
    {pool : Pool}
    {index : Int}
    {fault : ClassFault}
    (explains : pool.Explains index fault) :
    fault.IsLookup := by
  obtain ⟨place, -, amiss⟩ := explains
  cases amiss <;> trivial

variable (pool : Pool)

theorem className_fails (index : Int) :
    FailsOnly ClassFault.IsLookup (pool.className index) :=
  (pool.className_explained index).mono Explains.isLookup

theorem member_fails (index : Int) :
    FailsOnly ClassFault.IsLookup (pool.member index) :=
  (pool.member_explained index).mono Explains.isLookup

theorem dynamicMember_fails (index : Int) :
    FailsOnly ClassFault.IsLookup (pool.dynamicMember index) :=
  (pool.dynamicMember_explained index).mono Explains.isLookup

theorem loadable_fails (index : Int) :
    FailsOnly ClassFault.IsLookup (pool.loadable index) :=
  (pool.loadable_explained index).mono Explains.isLookup

end Pool

/-- A fault as decoding has it of a method with code. -/
def DecodeFault.Regular (fault : DecodeFault) : Prop :=
  match fault.cause with
  | .noCode _ => False
  | .badReference reason => reason.IsLookup ∧ fault.offset.isSome
  | .badTarget mnemonic _ => ∃ row ∈ Opcode.table, row.mnemonic = mnemonic
  | _ => True

namespace Decoding

variable {First Second : Type}

/-- A step refuses code only with regular faults. -/
def Refuses (decoding : Decoding First) : Prop :=
  ∀ cursor, FailsOnly DecodeFault.Regular (decoding cursor)

namespace Refuses

variable {decoding : Decoding First}

theorem value
    (first : First) :
    Refuses (pure first) := by
  intro cursor fault failed
  cases failed

theorem bind
    {next : First → Decoding Second}
    (first : Refuses decoding)
    (later : ∀ value, Refuses (next value)) :
    Refuses (decoding >>= next) := by
  intro cursor
  change FailsOnly _ (decoding cursor >>= fun pair => next pair.1 pair.2)
  exact (first cursor).bind fun {pair} _ => later pair.1 pair.2

theorem refuse
    {cause : DecodeCause}
    {offset : Nat}
    (regular : DecodeFault.Regular ⟨cause, some offset⟩) :
    Refuses (Decoding.refuse cause offset : Decoding First) := by
  intro cursor fault failed
  cases failed
  exact regular

/-- Nothing is read after a refusal. -/
theorem refused
    {cause : DecodeCause}
    {offset : Nat}
    (regular : DecodeFault.Regular ⟨cause, some offset⟩)
    {next : Unit → Decoding First} :
    Refuses (Decoding.refuse cause offset >>= next) := by
  intro cursor fault failed
  cases failed
  exact regular

theorem choice
    {condition : Prop}
    [Decidable condition]
    {other : Decoding First}
    (first : Refuses decoding)
    (second : Refuses other) :
    Refuses (if condition then decoding else other) := by
  split
  · exact first
  · exact second

theorem number (width : Nat) :
    Refuses (Decoding.number width) := by
  intro cursor fault failed
  unfold Decoding.number at failed
  split at failed
  · cases failed
    trivial
  · cases failed

theorem signedNumber (width : Nat) :
    Refuses (Decoding.signedNumber width) :=
  (number width).bind fun _ => value _

theorem resolve
    {result : Except ClassFault First}
    (fails : FailsOnly ClassFault.IsLookup result) :
    Refuses (Decoding.resolve result) := by
  intro cursor fault failed
  unfold Decoding.resolve at failed
  split at failed
  · cases failed
    exact ⟨fails _ rfl, rfl⟩
  · cases failed

theorem align : Refuses Decoding.align := by
  intro cursor fault failed
  cases failed

theorem remaining : Refuses Decoding.remaining := by
  intro cursor fault failed
  cases failed

theorem place : Refuses (get : Decoding Cursor) := by
  intro cursor fault failed
  cases failed

theorem times
    (repeated : Refuses decoding)
    (count : Nat) :
    Refuses (Decoding.times count decoding) := by
  induction count with
  | zero =>
      exact value _
  | succ count inductionHypothesis =>
      exact repeated.bind fun _ =>
        inductionHypothesis.bind fun _ => value _

end Refuses

end Decoding

namespace Code

open Decoding

theorem tableSwitch_refuses (offset : Nat) :
    Refuses (tableSwitch offset) := by
  unfold tableSwitch
  refine Refuses.align.bind fun _ => ?_
  refine (Refuses.signedNumber 4).bind fun _ => ?_
  refine (Refuses.signedNumber 4).bind fun _ => ?_
  refine (Refuses.signedNumber 4).bind fun _ => ?_
  refine Refuses.choice (Refuses.refused (by trivial)) ?_
  refine Refuses.remaining.bind fun _ => ?_
  refine Refuses.choice (Refuses.refused (by trivial)) ?_
  exact ((Refuses.signedNumber 4).times _).bind fun _ => Refuses.value _

theorem lookupSwitch_refuses (offset : Nat) :
    Refuses (lookupSwitch offset) := by
  unfold lookupSwitch
  refine Refuses.align.bind fun _ => ?_
  refine (Refuses.signedNumber 4).bind fun _ => ?_
  refine (Refuses.signedNumber 4).bind fun _ => ?_
  refine Refuses.choice (Refuses.refused (by trivial)) ?_
  refine Refuses.remaining.bind fun _ => ?_
  refine Refuses.choice (Refuses.refused (by trivial)) ?_
  refine (Refuses.times ?_ _).bind fun _ => Refuses.value _
  exact (Refuses.signedNumber 4).bind fun _ =>
    (Refuses.signedNumber 4).bind fun _ => Refuses.value _

/-- A property of steps that the reading of an operand has if its parts have it. -/
structure Inherited (Holds : {First : Type} → Decoding First → Prop) : Prop where
  value : ∀ {First : Type} (first : First), Holds (pure first)
  bind :
    ∀ {First Second : Type} {decoding : Decoding First}
      {next : First → Decoding Second},
      Holds decoding →
      (∀ value, Holds (next value)) →
      Holds (decoding >>= next)
  number : ∀ width, Holds (Decoding.number width)
  resolve :
    ∀ {First : Type} {result : Except ClassFault First},
      FailsOnly ClassFault.IsLookup result →
      Holds (Decoding.resolve result)
  tableSwitch : ∀ offset, Holds (Code.tableSwitch offset)
  lookupSwitch : ∀ offset, Holds (Code.lookupSwitch offset)

theorem Inherited.operand
    {Holds : {First : Type} → Decoding First → Prop}
    (inherited : Inherited Holds)
    (pool : Pool)
    (offset : Nat)
    (opcode : Opcode) :
    Holds (Code.operand pool offset opcode) := by
  have number (width : Nat) (make : Nat → Operand) :
      Holds (Decoding.number width >>= fun value => pure (make value)) :=
    inherited.bind (inherited.number width) fun _ => inherited.value _
  have signed (width : Nat) (make : Int → Operand) :
      Holds (signedNumber width >>= fun value => pure (make value)) :=
    inherited.bind
      (inherited.bind (inherited.number width) fun _ => inherited.value _)
      fun _ => inherited.value _
  have resolved
      {First Second : Type}
      (width : Nat)
      {lookup : Int → Except ClassFault First}
      (fails : ∀ index, FailsOnly ClassFault.IsLookup (lookup index))
      {next : First → Decoding Second}
      (later : ∀ found, Holds (next found)) :
      Holds
        (do
          let index ← Decoding.number width
          let found ← Decoding.resolve (lookup index)
          next found) :=
    inherited.bind (inherited.number width) fun _ =>
      inherited.bind (inherited.resolve (fails _)) later
  unfold Code.operand
  cases layout : opcode.layout with
  | none =>
      simp only
      exact inherited.value _
  | implied slot =>
      simp only
      exact inherited.value _
  | signedByte =>
      simp only
      exact signed 1 _
  | byte =>
      cases kind : opcode.kind <;> simp only
      case constant =>
        exact resolved 1 pool.loadable_fails fun _ => inherited.value _
      all_goals exact number 1 _
  | signedShort =>
      cases kind : opcode.kind <;> simp only
      all_goals exact signed 2 _
  | short =>
      cases kind : opcode.kind <;> simp only
      case constant =>
        exact resolved 2 pool.loadable_fails fun _ => inherited.value _
      case field =>
        exact resolved 2 pool.member_fails fun _ => inherited.value _
      case invoke =>
        exact resolved 2 pool.member_fails fun _ => inherited.value _
      all_goals
        exact resolved 2 pool.className_fails fun _ => inherited.value _
  | signedInt =>
      simp only
      exact signed 4 _
  | slotAndByte =>
      simp only
      exact inherited.bind (inherited.number 1) fun _ => signed 1 _
  | interfaceCall =>
      simp only
      exact resolved 2 pool.member_fails fun _ =>
        inherited.bind (inherited.number 1) fun _ => number 1 _
  | dynamicCall =>
      simp only
      exact resolved 2 pool.dynamicMember_fails fun _ => number 2 _
  | shortAndByte =>
      simp only
      exact resolved 2 pool.className_fails fun _ => number 1 _
  | tableSwitch =>
      simp only
      exact inherited.tableSwitch offset
  | lookupSwitch =>
      simp only
      exact inherited.lookupSwitch offset
  | widened =>
      simp only
      exact inherited.value _

theorem operand_refuses
    (pool : Pool)
    (offset : Nat)
    (opcode : Opcode) :
    Refuses (operand pool offset opcode) := by
  have inherited : Inherited Refuses :=
    { value := Refuses.value
      bind := Refuses.bind
      number := Refuses.number
      resolve := Refuses.resolve
      tableSwitch := tableSwitch_refuses
      lookupSwitch := lookupSwitch_refuses }
  exact inherited.operand pool offset opcode

theorem widened_refuses (offset : Nat) :
    Refuses (widened offset) := by
  unfold widened
  refine (Refuses.number 1).bind fun code => ?_
  split
  · exact Refuses.refuse trivial
  · refine (Refuses.number 2).bind fun _ => ?_
    refine Refuses.choice ?_ (.value _)
    exact (Refuses.signedNumber 2).bind fun _ => .value _

theorem instruction_refuses
    (pool : Pool)
    (index : Nat) :
    Refuses (instruction pool index) := by
  unfold instruction
  refine Refuses.place.bind fun cursor => ?_
  refine (Refuses.number 1).bind fun code => ?_
  split
  · exact Refuses.refuse trivial
  · refine Refuses.choice ?_ ?_
    · exact (widened_refuses _).bind fun _ =>
        Refuses.place.bind fun _ => .value _
    · exact (operand_refuses _ _ _).bind fun _ =>
        Refuses.place.bind fun _ => .value _

theorem instructions_refuse
    (pool : Pool)
    (bound index : Nat) :
    Refuses (instructions pool bound index) := by
  induction bound generalizing index with
  | zero =>
      exact .value _
  | succ bound inductionHypothesis =>
      unfold instructions
      refine Refuses.place.bind fun cursor => ?_
      refine Refuses.choice (.value _) ?_
      exact (instruction_refuses pool index).bind fun _ =>
        (inductionHypothesis _).bind fun _ => .value _

/-- Code is refused only with regular faults. -/
theorem decode_fails
    (code : Bytes)
    (pool : Pool) :
    FailsOnly DecodeFault.Regular (decode code pool) := by
  unfold decode
  split
  · exact .fault trivial
  · refine (instructions_refuse pool code.length 0 ⟨code, 0⟩).bind ?_
    intro (decoded, final) read
    have consecutive := instructions_consecutive read
    dsimp only
    split
    · rename_i fault stray
      obtain ⟨instruction, member, isStray⟩ :=
        List.exists_of_findSome?_eq_some stray
      obtain ⟨target, _, rfl⟩ := Option.map_eq_some_iff.mp isStray
      exact .fault ⟨_, (consecutive.fits member).row, rfl⟩
    · exact .value _

end Code

namespace CodeFlow

theorem targetIndex_fails
    {instructions : List Instruction}
    {source : Instruction}
    (row : source.opcode ∈ Opcode.table)
    (target : Int) :
    FailsOnly DecodeFault.Regular
      (targetIndex instructions source target) := by
  unfold targetIndex
  split
  · exact .value _
  · exact .fault ⟨_, row, rfl⟩

theorem jumpEdges_fail
    {instructions : List Instruction}
    {source : Instruction}
    (row : source.opcode ∈ Opcode.table)
    (jumps : List (EdgeKind × Int)) :
    FailsOnly DecodeFault.Regular
      (jumpEdges instructions source jumps) :=
  .mapM fun _ _ => (targetIndex_fails row _).bind fun _ => .value _

theorem instructionEdges_fail
    {instructions : List Instruction}
    {source : Instruction}
    (row : source.opcode ∈ Opcode.table) :
    FailsOnly DecodeFault.Regular
      (instructionEdges instructions source) := by
  have branches :
      FailsOnly DecodeFault.Regular (branchEdges instructions source) := by
    unfold branchEdges
    split <;>
      first
      | exact jumpEdges_fail row _
      | exact .value _
  have next :
      FailsOnly DecodeFault.Regular (nextEdges instructions source) := by
    unfold nextEdges
    split
    · split
      · exact .value _
      · exact .fault trivial
    · exact .value _
  exact branches.bind fun _ => next.bind fun _ => .value _

theorem handlerEdges_fail
    (instructions : List Instruction)
    (handler : Handler) :
    FailsOnly DecodeFault.Regular
      (handlerEdges instructions handler) := by
  unfold handlerEdges
  split
  · exact .fault trivial
  · exact .value _

/-- The flow of a method with code is refused only with regular faults. -/
theorem ofMethod_fails
    {pool : Pool}
    {method : Method}
    {body : Body}
    (hasBody : method.body = some body) :
    FailsOnly DecodeFault.Regular (ofMethod pool method) := by
  unfold ofMethod
  simp only [hasBody]
  refine (Code.decode_fails body.code pool).bind fun {instructions} decoded => ?_
  have consecutive := Code.decode_consecutive decoded
  unfold build
  refine (FailsOnly.mapM fun source member =>
    instructionEdges_fail (consecutive.fits member).row).bind fun _ => ?_
  refine (FailsOnly.mapM fun handler _ =>
    handlerEdges_fail instructions handler).bind fun _ => ?_
  exact .value _

end CodeFlow

end KeyAudit
