import KeyAudit.Proofs.Code.Refusals
import KeyAudit.Report.Diagnostic
import Mathlib.Data.List.Basic

namespace KeyAudit

/-!
# The code of a failure by its message

Messages of failures with different codes begin with different words, or end
differently.  So the code of a failure that a scan reports can be read off its
message.
-/

namespace Text

/-- Whether a text and an opening differ before either is at its end. -/
def clashes (text opening : Text) : Bool :=
  (text.zip opening).any fun (one, other) => one != other

theorem startsWith_append_of_clash
    {text opening : Text}
    (clash : text.clashes opening = true)
    (rest : Text) :
    (text ++ rest).startsWith opening = false := by
  induction text generalizing opening with
  | nil =>
      cases clash
  | cons point text inductionHypothesis =>
      cases opening with
      | nil =>
          cases clash
      | cons other opening =>
          simp only [clashes, List.zip_cons_cons, List.any_cons,
            Bool.or_eq_true, bne_iff_ne, ne_eq] at clash
          simp only [startsWith, List.cons_append, List.isPrefixOf_cons_cons,
            Bool.and_eq_false_imp, beq_iff_eq]
          intro same
          rcases clash with different | later
          · exact (different same.symm).elim
          · exact inductionHypothesis later

theorem startsWith_append
    {text opening : Text}
    (starts : text.startsWith opening = true)
    (rest : Text) :
    (text ++ rest).startsWith opening = true := by
  rw [startsWith, List.isPrefixOf_iff_prefix] at starts ⊢
  exact List.prefix_append_of_prefix starts

theorem mem_joinWith
    {separator : Text}
    {parts : List Text}
    {point : CodePoint}
    (member : point ∈ joinWith separator parts) :
    point ∈ separator ∨ ∃ part ∈ parts, point ∈ part := by
  induction parts with
  | nil =>
      cases member
  | cons first rest inductionHypothesis =>
      cases rest with
      | nil =>
          refine Or.inr ⟨first, List.mem_cons_self, ?_⟩
          simpa [joinWith, List.intercalate] using member
      | cons second rest =>
          simp only [joinWith, List.intercalate, List.intersperse_cons_cons,
            List.flatten_cons, List.mem_append] at member
          rcases member with inFirst | inSeparator | later
          · exact Or.inr ⟨first, List.mem_cons_self, inFirst⟩
          · exact Or.inl inSeparator
          · rcases inductionHypothesis later with inSeparator | ⟨part, isPart, inPart⟩
            · exact Or.inl inSeparator
            · exact Or.inr ⟨part, List.mem_cons_of_mem _ isPart, inPart⟩

end Text

/-- How messages begin that give away the code by their first words. -/
def openings : List (Text × Text) :=
  [("malformed ", "MK-2001"),
    ("operand stack", "MK-3000"),
    ("local ", "MK-3000"),
    ("stack depth", "MK-3000"),
    ("no fixpoint", "MK-3000"),
    ("truncated c", "MK-2000"),
    ("not a class", "MK-2000"),
    ("unknown c", "MK-2000"),
    ("bad Utf8", "MK-2000"),
    ("cannot read", "MK-2000")]

/-- The code that a message gives away by its first words. -/
def codeByOpening? (message : Text) : Option Text :=
  (openings.find? fun (opening, _) => message.startsWith opening).map Prod.snd

/-- How messages about an index of a pool begin. -/
def indexOpening : Text := "constant pool index "

/--
The code of a message.  A message about an index of a pool is one about code if
it ends in an offset in brackets.
-/
def codeOf (message : Text) : Text :=
  match codeByOpening? message with
  | some code => code
  | none =>
      if message.startsWith indexOpening ∧
          message.getLast? ≠ some (CodePoint.ofChar ')') then
        "MK-2000"
      else
        "MK-2002"

/-- Whether a beginning says for each opening if a message has it. -/
def isTelling (text : Text) : Bool :=
  (indexOpening :: openings.map Prod.fst).all fun opening =>
    text.startsWith opening || text.clashes opening

theorem startsWith_of_telling
    {text opening : Text}
    (telling : isTelling text = true)
    (isOpening : opening ∈ indexOpening :: openings.map Prod.fst)
    (rest : Text) :
    (text ++ rest).startsWith opening = text.startsWith opening := by
  have decided := List.all_eq_true.mp telling opening isOpening
  rcases Bool.or_eq_true_iff.mp decided with starts | clash
  · rw [starts, Text.startsWith_append starts]
  · have none := Text.startsWith_append_of_clash clash []
    rw [List.append_nil] at none
    rw [none, Text.startsWith_append_of_clash clash]

theorem codeByOpening?_of_telling
    {text : Text}
    (telling : isTelling text = true)
    (rest : Text) :
    codeByOpening? (text ++ rest) = codeByOpening? text := by
  have same :
      (openings.filter fun (opening, _) => (text ++ rest).startsWith opening) =
        openings.filter fun (opening, _) => text.startsWith opening := by
    refine List.filter_congr fun (opening, code) isOpening => ?_
    exact startsWith_of_telling telling
      (List.mem_cons_of_mem _ (List.mem_map_of_mem isOpening)) rest
  unfold codeByOpening?
  rw [← List.head?_filter, ← List.head?_filter, same]

/-- A telling beginning that gives the code away. -/
theorem codeOf_of_opening
    {text code : Text}
    (telling : isTelling text = true)
    (opens : codeByOpening? text = some code)
    (rest : Text) :
    codeOf (text ++ rest) = code := by
  rw [codeOf, codeByOpening?_of_telling telling, opens]

/-- Whether a beginning differs from each opening. -/
def isForeign (text : Text) : Bool :=
  (indexOpening :: openings.map Prod.fst).all text.clashes

theorem codeOf_of_foreign
    {text : Text}
    (foreign : isForeign text = true)
    (rest : Text) :
    codeOf (text ++ rest) = "MK-2002" := by
  have differs
      {opening : Text}
      (isOpening : opening ∈ indexOpening :: openings.map Prod.fst) :
      (text ++ rest).startsWith opening = false :=
    Text.startsWith_append_of_clash
      (List.all_eq_true.mp foreign opening isOpening) rest
  have none : codeByOpening? (text ++ rest) = none := by
    unfold codeByOpening?
    rw [Option.map_eq_none_iff, List.find?_eq_none]
    intro (opening, code) isOpening
    simp [differs (List.mem_cons_of_mem _ (List.mem_map_of_mem isOpening))]
  rw [codeOf, none]
  simp [differs List.mem_cons_self]

section Indices

variable (text : Text)
variable {ending : Text}

theorem codeOf_of_index
    (nonempty : ending ≠ []) :
    codeOf (indexOpening ++ text ++ ending) =
      if ending.getLast? = some (CodePoint.ofChar ')') then ("MK-2002" : Text)
      else "MK-2000" := by
  have telling : isTelling indexOpening = true := by
    decide
  have starts :
      (indexOpening ++ (text ++ ending)).startsWith indexOpening = true :=
    startsWith_of_telling telling List.mem_cons_self _
  have ends :
      (indexOpening ++ (text ++ ending)).getLast? = ending.getLast? := by
    rw [← List.append_assoc, List.getLast?_append_of_ne_nil _ nonempty]
  rw [List.append_assoc, codeOf, codeByOpening?_of_telling telling,
    show codeByOpening? indexOpening = none by decide]
  simp only [starts, ends, true_and]
  by_cases bracket : ending.getLast? = some (CodePoint.ofChar ')')
  · rw [if_neg (not_not_intro bracket), if_pos bracket]
  · rw [if_pos bracket, if_neg bracket]

/-- A message about an index that does not end in a bracket is about a class. -/
theorem codeOf_of_open_index
    (nonempty : ending ≠ [])
    (isOpen : ending.getLast? ≠ some (CodePoint.ofChar ')')) :
    codeOf (indexOpening ++ text ++ ending) = "MK-2000" := by
  rw [codeOf_of_index text nonempty, if_neg isOpen]

/-- A message about an index that ends in a bracket is about code. -/
theorem codeOf_of_closed_index
    (isClosed : ending.getLast? = some (CodePoint.ofChar ')')) :
    codeOf (indexOpening ++ text ++ ending) = "MK-2002" := by
  have nonempty : ending ≠ [] := by
    rintro rfl
    cases isClosed
  rw [codeOf_of_index text nonempty, if_pos isClosed]

end Indices

theorem bracket_not_mem_name
    (tag : PoolTag) :
    CodePoint.ofChar ')' ∉ (tag.name : Text) := by
  cases tag <;> decide

/-- No name of a tag and no slash is a bracket. -/
theorem bracket_not_mem_names
    (tags : List PoolTag) :
    CodePoint.ofChar ')' ∉
      Text.joinWith "/" (tags.map fun tag => (tag.name : Text)) := by
  intro member
  rcases Text.mem_joinWith member with inSlash | ⟨name, isName, inName⟩
  · revert inSlash
    decide
  · obtain ⟨tag, _, rfl⟩ := List.mem_map.mp isName
    exact bracket_not_mem_name tag inName

/-- The message of a class fault tells that it is one. -/
theorem ClassFault.codeOf_message
    (fault : ClassFault) :
    codeOf fault.message = "MK-2000" := by
  cases fault with
  | truncated needed offset =>
      simp only [message, List.append_assoc]
      exact codeOf_of_opening (by decide) (by decide) _
  | notAClass source =>
      exact codeOf_of_opening (by decide) (by decide) _
  | unknownTag number index =>
      simp only [message, List.append_assoc]
      exact codeOf_of_opening (by decide) (by decide) _
  | badUtf8 index =>
      exact codeOf_of_opening (by decide) (by decide) _
  | outOfRange index =>
      exact codeOf_of_open_index _ (by decide) (by decide)
  | unusable index =>
      exact codeOf_of_open_index _ (by decide) (by decide)
  | unexpectedTag index found expected =>
      have shape :
          message (.unexpectedTag index found expected) =
            indexOpening ++ (Text.ofInt index ++ " is " ++ found.name) ++
              (", expected " ++
                Text.joinWith "/"
                  (expected.map fun tag => (tag.name : Text))) := by
        simp only [message, indexOpening, List.append_assoc]
      rw [shape]
      refine codeOf_of_open_index _ (by simp [Text.ofString]) ?_
      intro closed
      -- The last point is in a name, or in the fixed words if there is none.
      rw [List.getLast?_append] at closed
      rcases Option.or_eq_some_iff.mp closed with inNames | ⟨_, inWords⟩
      · exact bracket_not_mem_names expected
          (List.mem_of_getLast? inNames)
      · revert inWords
        decide
  | notLoadable index found =>
      exact codeOf_of_open_index _ (by decide) (by decide)

theorem ClassFault.IsLookup.message
    {fault : ClassFault}
    (isLookup : fault.IsLookup) :
    ∃ rest, fault.message = indexOpening ++ rest := by
  cases fault <;> try contradiction
  all_goals
    simp only [ClassFault.message, List.append_assoc]
    exact ⟨_, rfl⟩

theorem DescriptorFault.codeOf_message
    (fault : DescriptorFault) :
    codeOf fault.message = "MK-2001" := by
  cases fault with
  | malformedMethod text =>
      exact codeOf_of_opening (by decide) (by decide) _
  | malformedField text =>
      exact codeOf_of_opening (by decide) (by decide) _

theorem AnalysisFault.codeOf_message
    (fault : AnalysisFault) :
    codeOf fault.message = "MK-3000" := by
  cases fault with
  | emptyStack =>
      decide
  | underflow needed available =>
      simp only [message, List.append_assoc]
      exact codeOf_of_opening (by decide) (by decide) _
  | slotOutOfRange slot available =>
      simp only [message, List.append_assoc]
      exact codeOf_of_opening (by decide) (by decide) _
  | depthMismatch first second =>
      simp only [message, List.append_assoc]
      exact codeOf_of_opening (by decide) (by decide) _
  | localMismatch first second =>
      simp only [message, List.append_assoc]
      exact codeOf_of_opening (by decide) (by decide) _
  | noFixpoint method visits =>
      simp only [message, List.append_assoc]
      exact codeOf_of_opening (by decide) (by decide) _

/-- No mnemonic makes a message look like one of another kind. -/
theorem mnemonics_foreign :
    (Opcode.table.all fun row =>
      isForeign (row.mnemonic ++ " targets ")) = true := by
  decide +kernel

/-- A message about a place in code ends in a bracket. -/
theorem DecodeFault.message_shape
    (fault : DecodeFault) :
    ∃ ending : Text,
      fault.toFailure.message = fault.cause.message ++ ending ∧
        (fault.offset.isSome = true →
          ending.getLast? = some (CodePoint.ofChar ')')) := by
  refine ⟨_, rfl, ?_⟩
  cases fault.offset with
  | none =>
      intro isPlaced
      cases isPlaced
  | some offset =>
      intro _
      exact List.getLast?_append_of_ne_nil _ (by decide)

/-- The message of a regular fault tells that it is about code. -/
theorem DecodeFault.codeOf_message
    {fault : DecodeFault}
    (regular : fault.Regular) :
    codeOf fault.toFailure.message = "MK-2002" := by
  obtain ⟨ending, shape, isClosed⟩ := fault.message_shape
  rw [shape]
  obtain ⟨cause, offset⟩ := fault
  cases cause with
  | noCode signature =>
      cases regular
  | badReference reason =>
      obtain ⟨isLookup, isPlaced⟩ := regular
      obtain ⟨rest, wording⟩ := isLookup.message
      rw [DecodeCause.message, wording]
      exact codeOf_of_closed_index rest (isClosed isPlaced)
  | badTarget mnemonic target =>
      obtain ⟨row, isRow, rfl⟩ := regular
      have told :=
        codeOf_of_foreign
          (List.all_eq_true.mp mnemonics_foreign row isRow)
      simp only [DecodeCause.message, List.append_assoc] at told ⊢
      exact told _
  | _ =>
      simp only [DecodeCause.message, List.append_assoc]
      exact codeOf_of_foreign (by decide) _

/-- A warning whose code can be read off its message. -/
def Diagnostic.Worded (diagnostic : Diagnostic) : Prop :=
  diagnostic.severity = .warning ∧
    diagnostic.code = codeOf diagnostic.message

/-- Such diagnostics are equal as soon as sorting does not tell them apart. -/
theorem Diagnostic.Worded.eq
    {first second : Diagnostic}
    (worded : first.Worded)
    (otherWorded : second.Worded)
    (unit : first.unit = second.unit)
    (method : first.method = second.method)
    (message : first.message = second.message) :
    first = second := by
  obtain ⟨severity, code⟩ := worded
  obtain ⟨otherSeverity, otherCode⟩ := otherWorded
  obtain ⟨_, _, _, _, _⟩ := first
  obtain ⟨_, _, _, _, _⟩ := second
  simp_all

theorem Diagnostic.worded_of_failure
    {failure : Failure}
    (told : codeOf failure.message = failure.code)
    (unit method : Text) :
    (ofFailure failure unit method).Worded :=
  ⟨rfl, told.symm⟩

theorem StepFault.codeOf_message
    (fault : StepFault) :
    codeOf fault.toFailure.message = fault.toFailure.code := by
  cases fault with
  | descriptor fault => exact fault.codeOf_message
  | analysis fault => exact fault.codeOf_message

/-- A method with code is refused with a failure whose message tells its code. -/
theorem MethodFrames.ofMethod_fails
    {pool : Pool}
    {method : Method}
    {body : Body}
    (hasBody : method.body = some body)
    (limit : Nat) :
    Outcome.FailsOnly
      (fun fault : MethodFault =>
        codeOf fault.toFailure.message = fault.toFailure.code)
      (ofMethod pool method limit) := by
  have decodeFault
      {fault : DecodeFault}
      (regular : fault.Regular) :
      codeOf (MethodFault.decode fault).toFailure.message =
        (MethodFault.decode fault).toFailure.code :=
    DecodeFault.codeOf_message regular
  refine ((CodeFlow.ofMethod_fails hasBody).mapError decodeFault).bind
    fun _ => ?_
  exact (Outcome.FailsOnly.any _).mapError fun {fault} _ =>
    fault.codeOf_message

end KeyAudit
