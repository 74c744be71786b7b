import KeyAudit.Report.Failure
import Mathlib.Data.List.Basic

namespace KeyAudit

/-!
# The grammar of descriptors

Reading a descriptor accepts exactly the texts of the grammar

```text
method  ::=  '(' field* ')' (field | 'V')
field   ::=  one of BCDFIJSZ  |  'L' name ';'  |  '[' field
```

where a name is one or more code points other than a semicolon.  No field is
the beginning of another one, so a text is taken apart in only one way and
reading never has to go back.
-/

namespace Descriptor

/-- The texts of the grammar for fields. -/
inductive IsField : Text → Prop where
  | base
      {letter : CodePoint}
      (isBase : letter ∈ Text.ofString "BCDFIJSZ") :
      IsField [letter]
  | object
      {name : Text}
      (named : name ≠ [])
      (noEnd : CodePoint.ofChar ';' ∉ name) :
      IsField (CodePoint.ofChar 'L' :: name ++ [CodePoint.ofChar ';'])
  | array
      {element : Text}
      (isField : IsField element) :
      IsField (CodePoint.ofChar '[' :: element)

/-- A text of the grammar for methods, taken apart into fields and a result. -/
structure IsMethod
    (text : Text)
    (fields : List Text)
    (result : Text) : Prop where
  shape :
    text =
      CodePoint.ofChar '(' ::
        (fields.flatten ++ CodePoint.ofChar ')' :: result)
  fields : ∀ field ∈ fields, IsField field
  result : IsField result ∨ result = Text.ofString "V"

/-- Reading a text is refused with a failure that carries the text. -/
def Refused
    {Read : Type}
    (text : Text)
    (outcome : Except DescriptorFault Read) : Prop :=
  ∃ fault,
    outcome = .error fault ∧ fault.toFailure.kind = .descriptor text

end Descriptor

open Descriptor

theorem Primitive.ofLetter?_eq_some
    {point : CodePoint}
    {type : Primitive} :
    ofLetter? point = some type ↔ type.letter = point := by
  constructor
  · intro found
    have isLetter := List.find?_some found
    exact eq_of_beq isLetter
  · rintro rfl
    cases type <;> rfl

theorem Primitive.mem_letters
    {point : CodePoint} :
    point ∈ Text.ofString "BCDFIJSZ" ↔
      ∃ type : Primitive, type.letter = point := by
  constructor
  · intro isBase
    have isLetter : point ∈ Primitive.all.map letter := isBase
    obtain ⟨type, _, same⟩ := List.mem_map.mp isLetter
    exact ⟨type, same⟩
  · rintro ⟨type, rfl⟩
    cases type <;> decide

namespace FieldType

/-- A class name ends at the first semicolon. -/
theorem span_name
    {name : Text}
    (noEnd : CodePoint.ofChar ';' ∉ name)
    (rest : Text) :
    (name ++ CodePoint.ofChar ';' :: rest).takeWhile
          (· ≠ CodePoint.ofChar ';') = name ∧
      (name ++ CodePoint.ofChar ';' :: rest).dropWhile
          (· ≠ CodePoint.ofChar ';') = CodePoint.ofChar ';' :: rest := by
  have others :
      ∀ point ∈ name, decide (point ≠ CodePoint.ofChar ';') = true := by
    intro point member
    refine decide_eq_true ?_
    rintro rfl
    exact noEnd member
  rw [List.takeWhile_append_of_pos others, List.dropWhile_append_of_pos others]
  simp

/-- Reading a field gives back what was written, whatever follows. -/
theorem read?_descriptor
    {type : FieldType}
    (wellFormed : type.WellFormed)
    (rest : Text) :
    read? (type.descriptor ++ rest) = some (type, rest) := by
  induction type with
  | primitive type =>
      have isLetter : Primitive.ofLetter? type.letter = some type :=
        Primitive.ofLetter?_eq_some.mpr rfl
      have notArray : type.letter ≠ CodePoint.ofChar '[' := by
        cases type <;> decide
      have notObject : type.letter ≠ CodePoint.ofChar 'L' := by
        cases type <;> decide
      simp [descriptor, read?, notArray, notObject, isLetter]
  | object className =>
      obtain ⟨named, noEnd⟩ := wellFormed
      obtain ⟨taken, dropped⟩ := span_name noEnd rest
      have notArray : CodePoint.ofChar 'L' ≠ CodePoint.ofChar '[' := by
        decide
      simp only [descriptor, List.cons_append, List.append_assoc,
        List.nil_append, read?, if_neg notArray, if_pos, taken, dropped]
      simp [named]
  | array element inductionHypothesis =>
      have inner := inductionHypothesis wellFormed
      simp only [descriptor, List.cons_append, read?, if_pos, inner,
        Option.map_some]

/-- A class name that is read ends before the first semicolon. -/
theorem object_of_span
    {text after : Text}
    {point : CodePoint}
    (dropped :
      text.dropWhile (· ≠ CodePoint.ofChar ';') = point :: after) :
    CodePoint.ofChar ';' ∉ text.takeWhile (· ≠ CodePoint.ofChar ';') ∧
      text =
        text.takeWhile (· ≠ CodePoint.ofChar ';') ++
          CodePoint.ofChar ';' :: after := by
  have isEnd : point = CodePoint.ofChar ';' := by
    have stopped :=
      List.head?_dropWhile_not (· ≠ CodePoint.ofChar ';') text
    rw [dropped] at stopped
    simpa using stopped
  subst isEnd
  constructor
  · intro member
    have taken := List.all_eq_true.mp List.all_takeWhile _ member
    simp at taken
  · rw [← dropped, List.takeWhile_append_dropWhile]

/-- What is read as a field was written for it. -/
theorem descriptor_of_read?
    {text rest : Text}
    {type : FieldType}
    (success : read? text = some (type, rest)) :
    type.WellFormed ∧ text = type.descriptor ++ rest := by
  induction text generalizing type rest with
  | nil =>
      cases success
  | cons point text inductionHypothesis =>
      unfold read? at success
      split at success
      · rename_i isArray
        obtain ⟨⟨element, after⟩, inner, same⟩ :=
          Option.map_eq_some_iff.mp success
        cases same
        obtain ⟨wellFormed, shape⟩ := inductionHypothesis inner
        rw [isArray, shape]
        exact ⟨wellFormed, rfl⟩
      · split at success
        · rename_i isObject
          dsimp only at success
          split at success
          · cases success
          · rename_i dropped
            obtain ⟨noEnd, shape⟩ := object_of_span dropped
            split at success
            · cases success
            · rename_i named
              cases success
              refine ⟨⟨by simpa using named, noEnd⟩, ?_⟩
              rw [isObject, descriptor, List.cons_append,
                List.cons_append, List.append_assoc,
                List.singleton_append, ← shape]
        · obtain ⟨primitive, isLetter, same⟩ :=
            Option.map_eq_some_iff.mp success
          cases same
          rw [← Primitive.ofLetter?_eq_some.mp isLetter]
          exact ⟨trivial, rfl⟩

theorem read?_eq_some
    {text rest : Text}
    {type : FieldType} :
    read? text = some (type, rest) ↔
      type.WellFormed ∧ text = type.descriptor ++ rest := by
  constructor
  · exact descriptor_of_read?
  · rintro ⟨wellFormed, rfl⟩
    exact read?_descriptor wellFormed rest

theorem parse_eq_ok
    {text : Text}
    {type : FieldType} :
    parse text = .ok type ↔
      type.WellFormed ∧ text = type.descriptor := by
  have whole :
      parse text = .ok type ↔ read? text = some (type, []) := by
    unfold parse
    split
    · rename_i other isRead
      simp [isRead]
    · rename_i notWhole
      simp only [reduceCtorEq, false_iff]
      exact notWhole type
  rw [whole, read?_eq_some, List.append_nil]

theorem parse_refused
    {text : Text}
    (fails : ∀ type, parse text ≠ .ok type) :
    Refused text (parse text) := by
  unfold parse at fails ⊢
  split
  · rename_i type isRead
    simp [isRead] at fails
  · exact ⟨_, rfl, rfl⟩

/-- The texts of the grammar are those of the types with proper names. -/
theorem isField_iff
    {text : Text} :
    IsField text ↔
      ∃ type : FieldType, type.WellFormed ∧ text = type.descriptor := by
  constructor
  · intro isField
    induction isField with
    | base isBase =>
        obtain ⟨primitive, rfl⟩ := Primitive.mem_letters.mp isBase
        exact ⟨.primitive primitive, trivial, rfl⟩
    | object named noEnd =>
        exact ⟨.object _, ⟨named, noEnd⟩, rfl⟩
    | array _ inductionHypothesis =>
        obtain ⟨element, wellFormed, rfl⟩ := inductionHypothesis
        exact ⟨.array element, wellFormed, rfl⟩
  · rintro ⟨type, wellFormed, rfl⟩
    induction type with
    | primitive type =>
        exact .base (Primitive.mem_letters.mpr ⟨type, rfl⟩)
    | object className =>
        exact .object wellFormed.1 wellFormed.2
    | array element inductionHypothesis =>
        exact .array (inductionHypothesis wellFormed)

/-- Reading a text as a field type follows the grammar for fields. -/
structure FollowsGrammar (text : Text) : Prop where
  accepts : (∃ type, parse text = .ok type) ↔ IsField text
  refuses : ¬IsField text → Refused text (parse text)
  writtenBack :
    ∀ {type}, parse text = .ok type → type.descriptor = text

theorem followsGrammar
    (text : Text) :
    FollowsGrammar text := by
  have accepts : (∃ type, parse text = .ok type) ↔ IsField text := by
    simp only [parse_eq_ok, isField_iff]
  refine ⟨accepts, ?_, ?_⟩
  · intro noField
    apply parse_refused
    intro type isRead
    exact noField (accepts.mp ⟨type, isRead⟩)
  · intro type isRead
    exact (parse_eq_ok.mp isRead).2.symm

/-- No field begins with the end of the parameters or with the letter of no result. -/
theorem head_descriptor
    (type : FieldType) :
    ∃ first rest,
      type.descriptor = first :: rest ∧
        first ≠ CodePoint.ofChar ')' ∧ first ≠ CodePoint.ofChar 'V' := by
  cases type with
  | primitive type =>
      refine ⟨type.letter, [], rfl, ?_, ?_⟩ <;> cases type <;> decide
  | object className =>
      exact ⟨_, _, rfl, by decide, by decide⟩
  | array element =>
      exact ⟨_, _, rfl, by decide, by decide⟩

end FieldType

namespace MethodType

/-- All classes that a method type names have proper names. -/
structure WellFormed (type : MethodType) : Prop where
  parameters : ∀ parameter ∈ type.parameters, parameter.WellFormed
  result : ∀ result, type.result = some result → result.WellFormed

/-- Reading parameters gives back what was written up to the parenthesis. -/
theorem readParameters?_descriptors
    {parameters : List FieldType}
    (wellFormed : ∀ parameter ∈ parameters, parameter.WellFormed)
    {bound : Nat}
    (enough : parameters.length < bound)
    (rest : Text) :
    readParameters? bound
        (parameters.flatMap FieldType.descriptor ++
          CodePoint.ofChar ')' :: rest) =
      some (parameters, rest) := by
  induction parameters generalizing bound with
  | nil =>
      obtain ⟨bound, rfl⟩ := Nat.exists_eq_add_one.mpr enough
      simp [readParameters?]
  | cons parameter parameters inductionHypothesis =>
      obtain ⟨bound, rfl⟩ :=
        Nat.exists_eq_add_one.mpr (Nat.zero_lt_of_lt enough)
      obtain ⟨parameterFormed, othersFormed⟩ :=
        List.forall_mem_cons.mp wellFormed
      have others :=
        inductionHypothesis othersFormed (Nat.lt_of_succ_lt_succ enough)
      have first :=
        FieldType.read?_descriptor parameterFormed
          (parameters.flatMap FieldType.descriptor ++
            CodePoint.ofChar ')' :: rest)
      obtain ⟨point, after, shape, notEnd, _⟩ := parameter.head_descriptor
      rw [shape, List.cons_append] at first
      rw [List.flatMap_cons, List.append_assoc, shape, List.cons_append]
      simp only [readParameters?, if_neg notEnd, first, others,
        Option.map_some]

/-- What is read as parameters was written for them. -/
theorem descriptors_of_readParameters?
    {bound : Nat}
    {text rest : Text}
    {parameters : List FieldType}
    (success : readParameters? bound text = some (parameters, rest)) :
    (∀ parameter ∈ parameters, parameter.WellFormed) ∧
      text =
        parameters.flatMap FieldType.descriptor ++
          CodePoint.ofChar ')' :: rest := by
  induction bound generalizing text parameters with
  | zero =>
      cases success
  | succ bound inductionHypothesis =>
      cases text with
      | nil =>
          cases success
      | cons point text =>
          unfold readParameters? at success
          split at success
          · rename_i isEnd
            cases success
            exact ⟨by simp, by rw [isEnd]; rfl⟩
          · split at success
            · cases success
            · rename_i first after isField
              obtain ⟨⟨others, tail⟩, readOthers, same⟩ :=
                Option.map_eq_some_iff.mp success
              cases same
              obtain ⟨firstFormed, shape⟩ :=
                FieldType.descriptor_of_read? isField
              obtain ⟨othersFormed, othersShape⟩ :=
                inductionHypothesis readOthers
              refine
                ⟨List.forall_mem_cons.mpr ⟨firstFormed, othersFormed⟩, ?_⟩
              rw [shape, othersShape, List.flatMap_cons,
                List.append_assoc]

theorem readResult?_eq_some
    {text : Text}
    {result : Option FieldType} :
    readResult? text = some result ↔
      (∀ type, result = some type → type.WellFormed) ∧
        text = resultDescriptor result := by
  constructor
  · intro success
    unfold readResult? at success
    split at success
    · rename_i isVoid
      cases success
      exact ⟨by simp, isVoid⟩
    · split at success
      · rename_i type isRead
        cases success
        obtain ⟨wellFormed, shape⟩ := FieldType.read?_eq_some.mp isRead
        rw [List.append_nil] at shape
        refine ⟨?_, shape⟩
        rintro other ⟨⟩
        exact wellFormed
      · cases success
  · rintro ⟨wellFormed, rfl⟩
    cases result with
    | none =>
        exact if_pos rfl
    | some type =>
        have isRead :=
          FieldType.read?_descriptor (wellFormed type rfl) []
        rw [List.append_nil] at isRead
        obtain ⟨point, after, shape, _, notVoid⟩ := type.head_descriptor
        have differs : type.descriptor ≠ void := by
          rw [shape]
          intro same
          exact notVoid (List.cons.inj same).1
        simp only [readResult?, resultDescriptor, if_neg differs, isRead]

theorem length_le_descriptors
    (parameters : List FieldType) :
    parameters.length ≤
      (parameters.flatMap FieldType.descriptor).length := by
  induction parameters with
  | nil =>
      exact Nat.le_refl 0
  | cons parameter parameters inductionHypothesis =>
      obtain ⟨point, after, shape, _⟩ := parameter.head_descriptor
      rw [List.flatMap_cons, shape]
      simp only [List.length_append, List.length_cons]
      omega

/-- A method type is read exactly from the text that is written for it. -/
theorem read?_eq_some
    {text : Text}
    {type : MethodType} :
    read? text = some type ↔
      type.WellFormed ∧ text = type.descriptor := by
  constructor
  · intro success
    cases text with
    | nil =>
        cases success
    | cons point text =>
        simp only [read?] at success
        split at success
        · rename_i isOpen
          split at success
          · cases success
          · rename_i parameters after readParameters
            obtain ⟨result, readResult, rfl⟩ :=
              Option.map_eq_some_iff.mp success
            obtain ⟨parametersFormed, shape⟩ :=
              descriptors_of_readParameters? readParameters
            obtain ⟨resultFormed, resultShape⟩ :=
              readResult?_eq_some.mp readResult
            refine ⟨⟨parametersFormed, resultFormed⟩, ?_⟩
            rw [isOpen, shape, resultShape]
            rfl
        · cases success
  · rintro ⟨⟨parametersFormed, resultFormed⟩, rfl⟩
    have enough :
        type.parameters.length <
          (type.parameters.flatMap FieldType.descriptor ++
            CodePoint.ofChar ')' :: resultDescriptor type.result).length := by
      have atLeast := length_le_descriptors type.parameters
      simp only [List.length_append, List.length_cons]
      omega
    have readParameters :=
      readParameters?_descriptors parametersFormed enough
        (resultDescriptor type.result)
    have readResult :
        readResult? (resultDescriptor type.result) = some type.result :=
      readResult?_eq_some.mpr ⟨resultFormed, rfl⟩
    simp only [descriptor, read?, if_pos, readParameters, readResult,
      Option.map_some]

theorem parse_eq_ok
    {text : Text}
    {type : MethodType} :
    parse text = .ok type ↔
      type.WellFormed ∧ text = type.descriptor := by
  rw [← read?_eq_some]
  unfold parse
  split
  · rename_i other isRead
    simp [isRead]
  · rename_i notRead
    simp [notRead]

theorem parse_refused
    {text : Text}
    (fails : ∀ type, parse text ≠ .ok type) :
    Refused text (parse text) := by
  unfold parse at fails ⊢
  split
  · rename_i type isRead
    simp [isRead] at fails
  · exact ⟨_, rfl, rfl⟩

theorem isResult_iff
    {text : Text} :
    IsField text ∨ text = Text.ofString "V" ↔
      ∃ result : Option FieldType,
        (∀ type, result = some type → type.WellFormed) ∧
          text = resultDescriptor result := by
  rw [FieldType.isField_iff]
  constructor
  · rintro (⟨type, wellFormed, shape⟩ | isVoid)
    · exact ⟨some type, by rintro _ ⟨⟩; exact wellFormed, shape⟩
    · exact ⟨none, by simp, isVoid⟩
  · rintro ⟨result, wellFormed, shape⟩
    cases result with
    | none =>
        exact Or.inr shape
    | some type =>
        exact Or.inl ⟨type, wellFormed type rfl, shape⟩

theorem areFields_iff
    {fields : List Text} :
    (∀ field ∈ fields, IsField field) ↔
      ∃ parameters : List FieldType,
        (∀ parameter ∈ parameters, parameter.WellFormed) ∧
          fields = parameters.map FieldType.descriptor := by
  constructor
  · intro areFields
    induction fields with
    | nil =>
        exact ⟨[], by simp, rfl⟩
    | cons field fields inductionHypothesis =>
        obtain ⟨isField, othersAre⟩ := List.forall_mem_cons.mp areFields
        obtain ⟨parameter, formed, rfl⟩ := FieldType.isField_iff.mp isField
        obtain ⟨parameters, allFormed, rfl⟩ := inductionHypothesis othersAre
        exact
          ⟨parameter :: parameters,
            List.forall_mem_cons.mpr ⟨formed, allFormed⟩, rfl⟩
  · rintro ⟨parameters, wellFormed, rfl⟩ field member
    obtain ⟨parameter, isParameter, rfl⟩ := List.mem_map.mp member
    exact FieldType.isField_iff.mpr
      ⟨parameter, wellFormed parameter isParameter, rfl⟩

/-- The texts of the grammar are those of the types with proper names. -/
theorem isMethod_iff
    {text result : Text}
    {fields : List Text} :
    IsMethod text fields result ↔
      ∃ type : MethodType,
        type.WellFormed ∧
          text = type.descriptor ∧
            fields = type.parameters.map FieldType.descriptor ∧
              result = resultDescriptor type.result := by
  constructor
  · rintro ⟨shape, areFields, isResult⟩
    obtain ⟨parameters, parametersFormed, rfl⟩ :=
      areFields_iff.mp areFields
    obtain ⟨resultType, resultFormed, rfl⟩ := isResult_iff.mp isResult
    rw [← List.flatMap_def] at shape
    exact
      ⟨⟨parameters, resultType⟩, ⟨parametersFormed, resultFormed⟩, shape,
        rfl, rfl⟩
  · rintro ⟨type, wellFormed, rfl, rfl, rfl⟩
    refine ⟨?_, ?_, ?_⟩
    · rw [← List.flatMap_def]
      rfl
    · exact areFields_iff.mpr ⟨type.parameters, wellFormed.parameters, rfl⟩
    · exact isResult_iff.mpr ⟨type.result, wellFormed.result, rfl⟩

/-- Reading a text as a method type follows the grammar for methods. -/
structure FollowsGrammar (text : Text) : Prop where
  accepts :
    (∃ type, parse text = .ok type) ↔
      ∃ fields result, IsMethod text fields result
  refuses :
    (¬∃ fields result, IsMethod text fields result) →
    Refused text (parse text)
  writtenBack :
    ∀ {type}, parse text = .ok type → type.descriptor = text
  /-- The text is taken apart in no other way. -/
  unique :
    ∀ {type fields result},
      parse text = .ok type →
      IsMethod text fields result →
      fields = type.parameters.map FieldType.descriptor ∧
        result = resultDescriptor type.result
  parameters :
    ∀ {type},
      parse text = .ok type →
      ∀ parameter ∈ type.parameters,
        FieldType.parse parameter.descriptor = .ok parameter
  result :
    ∀ {type},
      parse text = .ok type →
      ∀ result,
        type.result = some result →
        FieldType.parse result.descriptor = .ok result

theorem followsGrammar
    (text : Text) :
    FollowsGrammar text := by
  have accepts :
      (∃ type, parse text = .ok type) ↔
        ∃ fields result, IsMethod text fields result := by
    constructor
    · rintro ⟨type, isRead⟩
      obtain ⟨wellFormed, shape⟩ := parse_eq_ok.mp isRead
      exact
        ⟨_, _, isMethod_iff.mpr ⟨type, wellFormed, shape, rfl, rfl⟩⟩
    · rintro ⟨fields, result, isMethod⟩
      obtain ⟨type, wellFormed, shape, _⟩ := isMethod_iff.mp isMethod
      exact ⟨type, parse_eq_ok.mpr ⟨wellFormed, shape⟩⟩
  refine ⟨accepts, ?_, ?_, ?_, ?_, ?_⟩
  · intro noMethod
    apply parse_refused
    intro type isRead
    exact noMethod (accepts.mp ⟨type, isRead⟩)
  · intro type isRead
    exact (parse_eq_ok.mp isRead).2.symm
  · -- Fields and result are those of some type, and reading finds only one.
    intro type fields result isRead isMethod
    obtain ⟨other, wellFormed, shape, rfl, rfl⟩ := isMethod_iff.mp isMethod
    have isReadToo := parse_eq_ok.mpr ⟨wellFormed, shape⟩
    rw [isRead] at isReadToo
    cases isReadToo
    exact ⟨rfl, rfl⟩
  · intro type isRead parameter member
    obtain ⟨wellFormed, _⟩ := parse_eq_ok.mp isRead
    exact FieldType.parse_eq_ok.mpr
      ⟨wellFormed.parameters parameter member, rfl⟩
  · intro type isRead result isResult
    obtain ⟨wellFormed, _⟩ := parse_eq_ok.mp isRead
    exact FieldType.parse_eq_ok.mpr ⟨wellFormed.result result isResult, rfl⟩

end MethodType

end KeyAudit
