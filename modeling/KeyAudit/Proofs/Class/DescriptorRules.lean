import KeyAudit.Proofs.Class.Descriptor
import KeyAudit.Proofs.Text.Peg

namespace KeyAudit

/-!
# The rules for descriptors

The grammar of descriptors as parsing expressions, in which options are tried in
order and parameters are taken as long as there are some.  A text is matched as a
whole, and a visitor makes texts of types of the parse tree.  Reading comes to the
same types.
-/

open Peg

namespace Descriptor

/-- The names of the rules. -/
inductive Rule where
  | methodDescriptor
  | parameter
  | returnType
  | fieldType
  | baseType
  | objectType
  | className
  | arrayType
  | voidType
  deriving Repr, DecidableEq

/-- The expression of each rule. -/
def rules : Rule → Expression Rule
  | .methodDescriptor =>
      .sequence [.literal "(", .many (.rule .parameter), .literal ")", .rule .returnType]
  | .parameter => .rule .fieldType
  | .returnType => .choice [.rule .fieldType, .rule .voidType]
  | .fieldType => .choice [.rule .baseType, .rule .objectType, .rule .arrayType]
  | .baseType => .oneOf "BCDFIJSZ"
  | .objectType => .sequence [.literal "L", .rule .className, .literal ";"]
  | .className => .noneOf ';'
  | .arrayType => .sequence [.literal "[", .rule .fieldType]
  | .voidType => .literal "V"

/-- What the visitor makes of a node: a type as its text, a method, or what it made of children. -/
inductive Visited where
  | type (text : Text)
  | method (parameters : List Text) (result : Text)
  | children (items : List Visited)

/-- The text of a type. -/
def Visited.type? : Visited → Option Text
  | .type text => some text
  | _ => none

/-- What the visitor makes of a node for a rule, after its children. -/
def visitRule (rule : Option Rule) (text : Text) (visited : List Visited) : Option Visited :=
  match rule with
  | some .methodDescriptor =>
      match visited with
      | [_, .children parameters, _, .type result] =>
          (parameters.mapM Visited.type?).map fun parameters => .method parameters result
      | _ => none
  | some .parameter | some .returnType | some .fieldType => visited.head?
  | some .baseType | some .objectType | some .arrayType | some .voidType => some (.type text)
  | some .className | none => some (.children visited)

mutual

/-- What the visitor makes of a parse tree. -/
def visit : Node Rule → Option Visited
  | .mk rule text children => (visitAll children).bind (visitRule rule text)

/-- What the visitor makes of parse trees. -/
def visitAll : List (Node Rule) → Option (List Visited)
  | [] => some []
  | node :: nodes =>
      (visit node).bind fun first =>
        (visitAll nodes).map fun rest => first :: rest

end

/-- A rule matches a text as a whole, and the visitor makes something of the tree. -/
def Parses (rule : Rule) (text : Text) (visited : Visited) : Prop :=
  ∃ node,
    Runs rules (.expression (.rule rule)) text (some ([node], [])) ∧
      visit node = some visited

/-- The parse tree of a field type. -/
def fieldNode : FieldType → Node Rule
  | .primitive type =>
      (Node.ofChildren [(Node.leaf [type.letter]).named .baseType]).named .fieldType
  | .object className =>
      (Node.ofChildren
        [(Node.ofChildren
          [.leaf ['L'], (Node.leaf className).named .className, .leaf [';']]).named
            .objectType]).named .fieldType
  | .array element =>
      (Node.ofChildren
        [(Node.ofChildren [.leaf ['['], fieldNode element]).named .arrayType]).named .fieldType

theorem text_fieldNode
    (type : FieldType) :
    (fieldNode type).text = type.descriptor := by
  induction type with
  | primitive type =>
      rfl
  | object className =>
      simp only [fieldNode, Node.text_named, Node.text_ofChildren,
        Node.text_leaf, List.flatMap_cons, List.flatMap_nil, List.append_nil]
      rfl
  | array element inductionHypothesis =>
      simp only [fieldNode, Node.text_named, Node.text_ofChildren,
        Node.text_leaf, List.flatMap_cons, List.flatMap_nil, List.append_nil,
        inductionHypothesis]
      rfl

section Visits

@[simp]
theorem visit_leaf
    (text : Text) :
    visit (.leaf text) = some (.children []) :=
  rfl

@[simp]
theorem visit_named_leaf
    (rule : Rule)
    (text : Text) :
    visit ((Node.leaf text).named rule) = visitRule (some rule) text [] :=
  rfl

@[simp]
theorem visit_ofChildren
    (children : List (Node Rule)) :
    visit (.ofChildren children) = (visitAll children).map .children := by
  rw [Node.ofChildren, visit, Option.map_eq_bind]
  rfl

@[simp]
theorem visit_named_ofChildren
    (rule : Rule)
    (children : List (Node Rule)) :
    visit ((Node.ofChildren children).named rule) =
      (visitAll children).bind
        (visitRule (some rule) (children.flatMap Node.text)) :=
  rfl

@[simp]
theorem visitAll_nil : visitAll [] = some [] :=
  rfl

@[simp]
theorem visitAll_cons
    (node : Node Rule)
    (nodes : List (Node Rule)) :
    visitAll (node :: nodes) =
      (visit node).bind fun first =>
        (visitAll nodes).map fun rest => first :: rest :=
  rfl

end Visits

/-- The visitor gives a field type back as its text. -/
theorem visit_fieldNode
    (type : FieldType) :
    visit (fieldNode type) = some (.type type.descriptor) := by
  induction type with
  | primitive type =>
      rfl
  | object className =>
      simp [fieldNode, visitRule, FieldType.descriptor]
  | array element inductionHypothesis =>
      simp [fieldNode, visitRule, inductionHypothesis, text_fieldNode,
        FieldType.descriptor]

section Fields

/-- A literal of one code point matches where it stands. -/
theorem runs_literal
    (point : CodePoint)
    (rest : Text) :
    Runs rules (.expression (.literal [point])) (point :: rest)
      (some ([.leaf [point]], rest)) :=
  .literal rfl

/-- A literal of one code point matches nowhere else. -/
theorem literal_fails
    {point : CodePoint}
    {input : Text}
    (differs : input.head? ≠ some point) :
    Runs rules (.expression (.literal [point])) input none := by
  refine .literalFails ?_
  rintro ⟨rest, rfl⟩
  exact differs rfl

/-- What matching a field type comes to. -/
def fieldOutcome (text : Text) : Outcome Rule :=
  (FieldType.read? text).map fun found => ([fieldNode found.1], found.2)

/-- Matching a rule whose first part is a literal that does not stand there fails. -/
theorem object_fails
    {input : Text}
    (differs : input.head? ≠ some (CodePoint.ofChar 'L')) :
    Runs rules (.expression (.rule .objectType)) input none :=
  .ruleFails (.sequenceFails (.allFailsFirst (literal_fails differs)))

theorem array_fails
    {input : Text}
    (differs : input.head? ≠ some (CodePoint.ofChar '[')) :
    Runs rules (.expression (.rule .arrayType)) input none :=
  .ruleFails (.sequenceFails (.allFailsFirst (literal_fails differs)))

/-- A text that begins with no letter is a field type if it is an object or an array. -/
theorem field_of_options
    {input : Text}
    {outcome : Outcome Rule}
    (notBase : ∀ point ∈ input.head?, point ∉ Text.ofString "BCDFIJSZ")
    (option :
      Runs rules (.first [.rule .objectType, .rule .arrayType]) input outcome) :
    Runs rules (.expression (.rule .fieldType)) input
      (outcome.map fun found =>
        ([(Node.ofChildren found.1).named .fieldType], found.2)) := by
  have noBase : Runs rules (.expression (.rule .baseType)) input none :=
    .ruleFails (.oneOfFails notBase)
  have first := Runs.firstFails noBase option
  cases outcome with
  | none => exact .ruleFails (.choiceFails first)
  | some found => exact .rule (.choice first)

/-- Matching an array comes to what matching its element comes to. -/
theorem runs_array
    {rest : Text}
    (element :
      Runs rules (.expression (.rule .fieldType)) rest (fieldOutcome rest)) :
    Runs rules (.expression (.rule .fieldType)) (CodePoint.ofChar '[' :: rest)
      (fieldOutcome (CodePoint.ofChar '[' :: rest)) := by
  have notBase :
      ∀ point ∈ (CodePoint.ofChar '[' :: rest).head?,
        point ∉ Text.ofString "BCDFIJSZ" := by
    rintro point ⟨⟩
    decide
  have notObject := @object_fails (CodePoint.ofChar '[' :: rest) (by simp; decide)
  have bracket := runs_literal (CodePoint.ofChar '[') rest
  unfold fieldOutcome at element ⊢
  cases found : FieldType.read? rest with
  | none =>
      rw [found] at element
      have array :
          Runs rules (.expression (.rule .arrayType))
            (CodePoint.ofChar '[' :: rest) none :=
        .ruleFails (.sequenceFails
          (.allFailsLater bracket (.allFailsFirst element)))
      have fails :=
        field_of_options notBase
          (.firstFails notObject (.firstFails array .firstNil))
      simpa [FieldType.read?, found] using fails
  | some both =>
      obtain ⟨type, after⟩ := both
      rw [found] at element
      have array :
          Runs rules (.expression (.rule .arrayType))
            (CodePoint.ofChar '[' :: rest) _ :=
        .rule (.sequence (.allCons bracket (.allCons element .allNil)))
      have matched :=
        field_of_options notBase
          (.firstFails notObject (.firstMatches array))
      simpa [FieldType.read?, found, fieldNode] using matched

/-- Matching a class comes to a name up to the first semicolon. -/
theorem runs_object
    (rest : Text) :
    Runs rules (.expression (.rule .fieldType)) (CodePoint.ofChar 'L' :: rest)
      (fieldOutcome (CodePoint.ofChar 'L' :: rest)) := by
  have notBase :
      ∀ point ∈ (CodePoint.ofChar 'L' :: rest).head?,
        point ∉ Text.ofString "BCDFIJSZ" := by
    rintro point ⟨⟩
    decide
  have notArray := @array_fails (CodePoint.ofChar 'L' :: rest) (by simp; decide)
  have letter := runs_literal (CodePoint.ofChar 'L') rest
  have fails
      (noObject :
        Runs rules (.expression (.rule .objectType))
          (CodePoint.ofChar 'L' :: rest) none) :=
    field_of_options notBase
      (.firstFails noObject (.firstFails notArray .firstNil))
  have isObject : CodePoint.ofChar 'L' ≠ CodePoint.ofChar '[' := by
    decide
  unfold fieldOutcome FieldType.read?
  rw [if_neg isObject, if_pos rfl]
  dsimp only
  by_cases unnamed : rest.takeWhile (· ≠ CodePoint.ofChar ';') = []
  · have noName : Runs rules (.expression (.rule .className)) rest none :=
      .ruleFails (.noneOfFails unnamed)
    have matched :=
      fails (.ruleFails (.sequenceFails
        (.allFailsLater letter (.allFailsFirst noName))))
    cases dropped : rest.dropWhile (· ≠ CodePoint.ofChar ';') with
    | nil =>
        exact matched
    | cons point after =>
        dsimp only
        rw [if_pos (List.isEmpty_iff.mpr unnamed)]
        exact matched
  · have name :
        Runs rules (.expression (.rule .className)) rest _ :=
      .rule (.noneOf unnamed)
    cases dropped : rest.dropWhile (· ≠ CodePoint.ofChar ';') with
    | nil =>
        rw [dropped] at name
        exact fails (.ruleFails (.sequenceFails
          (.allFailsLater letter
            (.allFailsLater name
              (.allFailsFirst (literal_fails (by simp)))))))
    | cons point after =>
        obtain rfl : point = CodePoint.ofChar ';' := by
          obtain ⟨_, shape⟩ := FieldType.object_of_span dropped
          have whole :
              rest.takeWhile (· ≠ CodePoint.ofChar ';') ++
                rest.dropWhile (· ≠ CodePoint.ofChar ';') = rest :=
            List.takeWhile_append_dropWhile
          rw [dropped] at whole
          exact
            (List.cons.inj (List.append_cancel_left (whole.trans shape))).1
        rw [dropped] at name
        have object :
            Runs rules (.expression (.rule .objectType))
              (CodePoint.ofChar 'L' :: rest) _ :=
          .rule (.sequence
            (.allCons letter
              (.allCons name
                (.allCons (runs_literal (CodePoint.ofChar ';') after) .allNil))))
        dsimp only
        rw [if_neg (mt List.isEmpty_iff.mp unnamed)]
        exact field_of_options notBase (.firstMatches object)

/-- Matching a field type comes to what reading one comes to. -/
theorem runs_field
    (text : Text) :
    Runs rules (.expression (.rule .fieldType)) text (fieldOutcome text) := by
  induction text with
  | nil =>
      exact field_of_options (by simp)
        (.firstFails (object_fails (by simp))
          (.firstFails (array_fails (by simp)) .firstNil))
  | cons point rest inductionHypothesis =>
      by_cases isArray : point = CodePoint.ofChar '['
      · subst isArray
        exact runs_array inductionHypothesis
      · by_cases isObject : point = CodePoint.ofChar 'L'
        · subst isObject
          exact runs_object rest
        · unfold fieldOutcome FieldType.read?
          rw [if_neg isArray, if_neg isObject]
          cases isLetter : Primitive.ofLetter? point with
          | some type =>
              obtain rfl := Primitive.ofLetter?_eq_some.mp isLetter
              have base :
                  Runs rules (.expression (.rule .baseType))
                    (type.letter :: rest) _ :=
                .rule (.oneOf (Primitive.mem_letters.mpr ⟨type, rfl⟩))
              exact .rule (.choice (.firstMatches base))
          | none =>
              have notBase :
                  ∀ other ∈ (point :: rest).head?,
                    other ∉ Text.ofString "BCDFIJSZ" := by
                rintro other ⟨⟩ isBase
                obtain ⟨type, same⟩ := Primitive.mem_letters.mp isBase
                rw [Primitive.ofLetter?_eq_some.mpr same] at isLetter
                cases isLetter
              exact field_of_options notBase
                (.firstFails (object_fails (by simpa using isObject))
                  (.firstFails (array_fails (by simpa using isArray)) .firstNil))

theorem runs_of_read?
    {text rest : Text}
    {type : FieldType}
    (isRead : FieldType.read? text = some (type, rest)) :
    Runs rules (.expression (.rule .fieldType)) text
      (some ([fieldNode type], rest)) := by
  have runs := runs_field text
  rwa [fieldOutcome, isRead] at runs

theorem fails_of_read?
    {text : Text}
    (notRead : FieldType.read? text = none) :
    Runs rules (.expression (.rule .fieldType)) text none := by
  have runs := runs_field text
  rwa [fieldOutcome, notRead] at runs

/-- A text is taken apart as a field type as a whole exactly if it is read as one. -/
theorem parses_field
    {text : Text}
    {visited : Visited} :
    Parses .fieldType text visited ↔
      ∃ type,
        FieldType.parse text = .ok type ∧ visited = .type type.descriptor := by
  simp only [FieldType.parse_eq_ok]
  constructor
  · rintro ⟨node, runs, visits⟩
    obtain ⟨⟨type, rest⟩, isRead, same⟩ :=
      Option.map_eq_some_iff.mp (runs.unique (runs_field text)).symm
    cases same
    obtain ⟨wellFormed, shape⟩ := FieldType.read?_eq_some.mp isRead
    rw [visit_fieldNode, Option.some_inj] at visits
    exact ⟨type, ⟨wellFormed, by rw [shape, List.append_nil]⟩, visits.symm⟩
  · rintro ⟨type, ⟨wellFormed, rfl⟩, rfl⟩
    refine ⟨fieldNode type, runs_of_read? ?_, visit_fieldNode type⟩
    exact FieldType.read?_eq_some.mpr
      ⟨wellFormed, (List.append_nil _).symm⟩

end Fields

section Methods

/-- The parse tree of a parameter. -/
def parameterNode (type : FieldType) : Node Rule :=
  (fieldNode type).named .parameter

/-- The parse tree of a result. -/
def resultNode : Option FieldType → Node Rule
  | none => (Node.ofChildren [(Node.leaf ['V']).named .voidType]).named .returnType
  | some type => (Node.ofChildren [fieldNode type]).named .returnType

/-- The parse tree of a method type. -/
def methodNode (type : MethodType) : Node Rule :=
  (Node.ofChildren
    [.leaf ['('], .ofChildren (type.parameters.map parameterNode), .leaf [')'],
      resultNode type.result]).named .methodDescriptor

theorem visitAll_parameters
    (types : List FieldType) :
    visitAll (types.map parameterNode) =
      some (types.map fun type => .type type.descriptor) := by
  induction types with
  | nil =>
      rfl
  | cons type types inductionHypothesis =>
      have same : visit (parameterNode type) = visit (fieldNode type) := by
        cases type <;> rfl
      simp [inductionHypothesis, same, visit_fieldNode]

theorem visit_resultNode
    (result : Option FieldType) :
    visit (resultNode result) =
      some (.type (MethodType.resultDescriptor result)) := by
  cases result with
  | none => rfl
  | some type => simp [resultNode, visit_fieldNode, visitRule, MethodType.resultDescriptor]

/-- The visitor gives a method type back as the texts of its types. -/
theorem visit_methodNode
    (type : MethodType) :
    visit (methodNode type) =
      some
        (.method (type.parameters.map FieldType.descriptor)
          (MethodType.resultDescriptor type.result)) := by
  have texts :
      (type.parameters.map fun parameter =>
          Visited.type parameter.descriptor).mapM Visited.type? =
        some (type.parameters.map FieldType.descriptor) := by
    induction type.parameters with
    | nil => rfl
    | cons parameter parameters inductionHypothesis =>
        simp [inductionHypothesis, Visited.type?]
  simp [methodNode, visitAll_parameters, visit_resultNode, visitRule, texts]

/-- Parameters are taken as long as there are some. -/
theorem runs_parameters
    {types : List FieldType}
    (wellFormed : ∀ type ∈ types, type.WellFormed)
    {rest : Text}
    (stops : FieldType.read? rest = none) :
    Runs rules (.repeated (.rule .parameter))
      (types.flatMap FieldType.descriptor ++ rest)
      (some (types.map parameterNode, rest)) := by
  induction types with
  | nil =>
      exact .repeatedStops (.ruleFails (fails_of_read? stops))
  | cons type types inductionHypothesis =>
      obtain ⟨typeFormed, othersFormed⟩ := List.forall_mem_cons.mp wellFormed
      rw [List.flatMap_cons, List.append_assoc]
      exact .repeatedMore
        (.rule (runs_of_read? (FieldType.read?_descriptor typeFormed _)))
        (inductionHypothesis othersFormed)

/-- Every text begins with as many field types as there are. -/
theorem exists_parameters
    (text : Text) :
    ∃ (types : List FieldType) (rest : Text),
      (∀ type ∈ types, type.WellFormed) ∧
        text = types.flatMap FieldType.descriptor ++ rest ∧
          FieldType.read? rest = none := by
  induction length : text.length using Nat.strongRecOn generalizing text with
  | ind count inductionHypothesis =>
      cases isRead : FieldType.read? text with
      | none =>
          exact ⟨[], text, by simp, rfl, isRead⟩
      | some found =>
          obtain ⟨type, after⟩ := found
          obtain ⟨wellFormed, shape⟩ := FieldType.read?_eq_some.mp isRead
          obtain ⟨first, more, begins, _⟩ := type.head_descriptor
          have shorter : after.length < count := by
            rw [← length, shape, begins, List.length_append, List.length_cons]
            omega
          obtain ⟨types, rest, othersFormed, othersShape, stops⟩ :=
            inductionHypothesis _ shorter after rfl
          refine
            ⟨type :: types, rest,
              List.forall_mem_cons.mpr ⟨wellFormed, othersFormed⟩, ?_, stops⟩
          rw [shape, List.flatMap_cons, List.append_assoc, ← othersShape]

/-- A result is matched where it stands. -/
theorem runs_result
    {result : Option FieldType}
    (wellFormed : ∀ type, result = some type → type.WellFormed)
    (rest : Text) :
    Runs rules (.expression (.rule .returnType))
      (MethodType.resultDescriptor result ++ rest)
      (some ([resultNode result], rest)) := by
  cases result with
  | none =>
      have notField : FieldType.read? (CodePoint.ofChar 'V' :: rest) = none :=
        rfl
      have isVoid :
          Runs rules (.expression (.rule .voidType))
            (CodePoint.ofChar 'V' :: rest) _ :=
        .rule (runs_literal (CodePoint.ofChar 'V') rest)
      have matched :
          Runs rules (.expression (.rule .returnType)) _ _ :=
        .rule (.choice
          (.firstFails (fails_of_read? notField) (.firstMatches isVoid)))
      exact matched
  | some type =>
      have isField :=
        runs_of_read? (FieldType.read?_descriptor (wellFormed type rfl) rest)
      have matched :
          Runs rules (.expression (.rule .returnType)) _ _ :=
        .rule (.choice (.firstMatches isField))
      exact matched

/-- Where no result stands nothing matches. -/
theorem result_fails
    {text : Text}
    (notField : FieldType.read? text = none)
    (notVoid : text.head? ≠ some (CodePoint.ofChar 'V')) :
    Runs rules (.expression (.rule .returnType)) text none :=
  .ruleFails (.choiceFails
    (.firstFails (fails_of_read? notField)
      (.firstFails (.ruleFails (literal_fails notVoid)) .firstNil)))

/-- A method type is matched where it stands. -/
theorem runs_method
    {type : MethodType}
    (wellFormed : type.WellFormed)
    (rest : Text) :
    Runs rules (.expression (.rule .methodDescriptor)) (type.descriptor ++ rest)
      (some ([methodNode type], rest)) := by
  have stops :
      FieldType.read?
          (CodePoint.ofChar ')' ::
            (MethodType.resultDescriptor type.result ++ rest)) = none :=
    rfl
  have parameters := runs_parameters wellFormed.parameters stops
  have whole :
      Runs rules (.expression (.rule .methodDescriptor)) _ _ :=
    .rule (.sequence
      (.allCons (runs_literal (CodePoint.ofChar '(') _)
        (.allCons (.many parameters)
          (.allCons (runs_literal (CodePoint.ofChar ')') _)
            (.allCons (runs_result wellFormed.result rest) .allNil)))))
  simpa [MethodType.descriptor, methodNode] using whole

/-- Matching a method type comes to an end, and what is matched is one. -/
def MethodSettled (text : Text) : Prop :=
  ∃ outcome,
    Runs rules (.expression (.rule .methodDescriptor)) text outcome ∧
      ∀ nodes rest,
        outcome = some (nodes, rest) →
          ∃ type : MethodType,
            type.WellFormed ∧
              text = type.descriptor ++ rest ∧ nodes = [methodNode type]

theorem settled_of_descriptor
    {type : MethodType}
    (wellFormed : type.WellFormed)
    {text : Text}
    (rest : Text)
    (shape : text = type.descriptor ++ rest) :
    MethodSettled text := by
  refine ⟨_, shape ▸ runs_method wellFormed rest, ?_⟩
  rintro nodes tail ⟨⟩
  exact ⟨type, wellFormed, shape, rfl⟩

theorem settled_of_failure
    {text : Text}
    (fails :
      Runs rules
        (.all
          [.literal "(", .many (.rule .parameter), .literal ")",
            .rule .returnType]) text none) :
    MethodSettled text :=
  ⟨none, .ruleFails (.sequenceFails fails), nofun⟩

/-- The parts of a method type match one after the other, or one of them does not. -/
theorem method_settled
    (text : Text) :
    MethodSettled text := by
  by_cases opens : text.head? = some (CodePoint.ofChar '(')
  · obtain ⟨body, rfl⟩ := List.head?_eq_some_iff.mp opens
    obtain ⟨types, rest, typesFormed, rfl, stops⟩ := exists_parameters body
    have parameters := runs_parameters typesFormed stops
    have start := runs_literal (CodePoint.ofChar '(')
      (types.flatMap FieldType.descriptor ++ rest)
    by_cases closes : rest.head? = some (CodePoint.ofChar ')')
    · obtain ⟨after, rfl⟩ := List.head?_eq_some_iff.mp closes
      cases isRead : FieldType.read? after with
      | some found =>
          obtain ⟨type, tail⟩ := found
          obtain ⟨typeFormed, rfl⟩ := FieldType.read?_eq_some.mp isRead
          have formed : MethodType.WellFormed ⟨types, some type⟩ := by
            refine ⟨typesFormed, ?_⟩
            rintro _ ⟨⟩
            exact typeFormed
          refine settled_of_descriptor formed tail ?_
          simp [MethodType.descriptor, MethodType.resultDescriptor]
      | none =>
          by_cases isVoid : after.head? = some (CodePoint.ofChar 'V')
          · obtain ⟨tail, rfl⟩ := List.head?_eq_some_iff.mp isVoid
            have formed : MethodType.WellFormed ⟨types, none⟩ := by
              refine ⟨typesFormed, ?_⟩
              rintro _ ⟨⟩
            refine settled_of_descriptor formed tail ?_
            simp [MethodType.descriptor, MethodType.resultDescriptor]
            rfl
          · exact settled_of_failure
              (.allFailsLater start
                (.allFailsLater (.many parameters)
                  (.allFailsLater (runs_literal (CodePoint.ofChar ')') after)
                    (.allFailsFirst (result_fails isRead isVoid)))))
    · exact settled_of_failure
        (.allFailsLater start
          (.allFailsLater (.many parameters)
            (.allFailsFirst (literal_fails closes))))
  · exact settled_of_failure (.allFailsFirst (literal_fails opens))

/-- A text is taken apart as a method type as a whole exactly if it is read as one. -/
theorem parses_method
    {text : Text}
    {visited : Visited} :
    Parses .methodDescriptor text visited ↔
      ∃ type,
        MethodType.parse text = .ok type ∧
          visited =
            .method (type.parameters.map FieldType.descriptor)
              (MethodType.resultDescriptor type.result) := by
  simp only [MethodType.parse_eq_ok]
  constructor
  · rintro ⟨node, runs, visits⟩
    obtain ⟨outcome, runsToo, told⟩ := method_settled text
    obtain ⟨type, wellFormed, shape, same⟩ :=
      told _ _ (runsToo.unique runs)
    cases same
    rw [visit_methodNode, Option.some_inj] at visits
    exact ⟨type, ⟨wellFormed, by rw [shape, List.append_nil]⟩, visits.symm⟩
  · rintro ⟨type, ⟨wellFormed, rfl⟩, rfl⟩
    refine ⟨methodNode type, ?_, visit_methodNode type⟩
    have runs := runs_method wellFormed []
    rwa [List.append_nil] at runs

end Methods

/--
The rules match every text in one way, and what the visitor makes of a match of
the whole text is what reading comes to.
-/
structure FollowsRules (text : Text) : Prop where
  matchesField :
    ∃! outcome, Runs rules (.expression (.rule .fieldType)) text outcome
  matchesMethod :
    ∃! outcome, Runs rules (.expression (.rule .methodDescriptor)) text outcome
  field :
    ∀ visited,
      Parses .fieldType text visited ↔
        ∃ type,
          FieldType.parse text = .ok type ∧ visited = .type type.descriptor
  method :
    ∀ visited,
      Parses .methodDescriptor text visited ↔
        ∃ type,
          MethodType.parse text = .ok type ∧
            visited =
              .method (type.parameters.map FieldType.descriptor)
                (MethodType.resultDescriptor type.result)

theorem followsRules
    (text : Text) :
    FollowsRules text := by
  obtain ⟨outcome, runs, _⟩ := method_settled text
  exact
    { matchesField :=
        ⟨_, runs_field text, fun _ runsToo => runsToo.unique (runs_field text)⟩
      matchesMethod := ⟨outcome, runs, fun _ runsToo => runsToo.unique runs⟩
      field := fun _ => parses_field
      method := fun _ => parses_method }

end Descriptor

namespace MethodType

/--
Reading descriptors of fields and methods follows the grammar on every text, as
its rules match it, and reading what is written for a type with proper names gives
the type.
-/
theorem parse_iff_grammar :
    (∀ text,
        FollowsGrammar text ∧
          FieldType.FollowsGrammar text ∧ Descriptor.FollowsRules text) ∧
      ∀ type : MethodType,
        type.WellFormed →
        parse type.descriptor = .ok type := by
  refine ⟨fun text => ?_, ?_⟩
  · exact
      ⟨followsGrammar text, FieldType.followsGrammar text,
        Descriptor.followsRules text⟩
  · intro type wellFormed
    exact parse_eq_ok.mpr ⟨wellFormed, rfl⟩

/-- Parentheses, brackets and line feeds may stand in the name of a class. -/
theorem parse_iff_grammar_oddName :
    parse (Text.ofString "([La)V[\n;J)[I") =
      .ok
        ⟨[.array (.object (Text.ofString "a)V[\n")), .primitive .long],
          some (.array (.primitive .int))⟩ := by
  have wellFormed :
      WellFormed
        ⟨[.array (.object (Text.ofString "a)V[\n")), .primitive .long],
          some (.array (.primitive .int))⟩ := by
    refine ⟨?_, ?_⟩
    · simp only [List.forall_mem_cons]
      exact ⟨⟨by decide, by decide⟩, trivial, by simp⟩
    · rintro _ ⟨⟩
      trivial
  exact parse_iff_grammar.2 _ wellFormed

end MethodType

end KeyAudit
