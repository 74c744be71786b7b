import KeyAudit.Text.Basic
import Mathlib.Data.List.Basic

namespace KeyAudit

/-!
# Parsing expressions

A grammar of parsing expressions says how a text is taken apart.  Of several
options the first one that matches is taken, and a repetition goes on as long as
its item matches; neither is reconsidered later.  So the way a text is matched is
unique.
-/

namespace Peg

/-- A parsing expression with references to rules. -/
inductive Expression (Rule : Type) where
  | literal (text : Text)
  /-- One of some code points. -/
  | oneOf (points : List CodePoint)
  /-- One or more code points other than the given one, as many as there are. -/
  | noneOf (excluded : CodePoint)
  | rule (name : Rule)
  | sequence (parts : List (Expression Rule))
  /-- The first option that matches. -/
  | choice (options : List (Expression Rule))
  /-- As many matches in a row as there are. -/
  | many (item : Expression Rule)

/-- A node of a parse tree: the rule that it is for, its text and its children. -/
inductive Node (Rule : Type) where
  | mk (rule : Option Rule) (text : Text) (children : List (Node Rule))

namespace Node

variable {Rule : Type}

/-- The text of a node. -/
def text : Node Rule → Text
  | mk _ text _ => text

/-- A node without children. -/
def leaf (text : Text) : Node Rule :=
  mk none text []

/-- A node for its children. -/
def ofChildren (children : List (Node Rule)) : Node Rule :=
  mk none (children.flatMap text) children

/-- The same node for a rule. -/
def named (rule : Rule) : Node Rule → Node Rule
  | mk _ text children => mk (some rule) text children

@[simp]
theorem text_leaf
    (text : Text) :
    (leaf text : Node Rule).text = text :=
  rfl

@[simp]
theorem text_ofChildren
    (children : List (Node Rule)) :
    (ofChildren children).text = children.flatMap text :=
  rfl

@[simp]
theorem text_named
    (rule : Rule)
    (node : Node Rule) :
    (node.named rule).text = node.text := by
  cases node
  rfl

end Node

/-- What is to be matched. -/
inductive Task (Rule : Type) where
  | expression (expression : Expression Rule)
  /-- All expressions, one after the other. -/
  | all (parts : List (Expression Rule))
  /-- The first of the expressions that matches. -/
  | first (options : List (Expression Rule))
  /-- An expression as often as it matches. -/
  | repeated (item : Expression Rule)

/-- The nodes that a text was taken apart into and the rest of it, unless nothing matches. -/
abbrev Outcome (Rule : Type) := Option (List (Node Rule) × Text)

/-- How texts are matched under the rules of a grammar. -/
inductive Runs {Rule : Type} (rules : Rule → Expression Rule) :
    Task Rule → Text → Outcome Rule → Prop where
  | literal
      {text input rest : Text}
      (shape : input = text ++ rest) :
      Runs rules (.expression (.literal text)) input
        (some ([.leaf text], rest))
  | literalFails
      {text input : Text}
      (differs : ¬text <+: input) :
      Runs rules (.expression (.literal text)) input none
  | oneOf
      {points : List CodePoint}
      {point : CodePoint}
      {rest : Text}
      (isOne : point ∈ points) :
      Runs rules (.expression (.oneOf points)) (point :: rest)
        (some ([.leaf [point]], rest))
  | oneOfFails
      {points : List CodePoint}
      {input : Text}
      (isNone : ∀ point ∈ input.head?, point ∉ points) :
      Runs rules (.expression (.oneOf points)) input none
  | noneOf
      {excluded : CodePoint}
      {input : Text}
      (nonempty : input.takeWhile (· ≠ excluded) ≠ []) :
      Runs rules (.expression (.noneOf excluded)) input
        (some
          ([.leaf (input.takeWhile (· ≠ excluded))],
            input.dropWhile (· ≠ excluded)))
  | noneOfFails
      {excluded : CodePoint}
      {input : Text}
      (stops : input.takeWhile (· ≠ excluded) = []) :
      Runs rules (.expression (.noneOf excluded)) input none
  | rule
      {name : Rule}
      {input rest : Text}
      {node : Node Rule}
      (body : Runs rules (.expression (rules name)) input (some ([node], rest))) :
      Runs rules (.expression (.rule name)) input
        (some ([node.named name], rest))
  | ruleFails
      {name : Rule}
      {input : Text}
      (body : Runs rules (.expression (rules name)) input none) :
      Runs rules (.expression (.rule name)) input none
  | sequence
      {parts : List (Expression Rule)}
      {input rest : Text}
      {nodes : List (Node Rule)}
      (all : Runs rules (.all parts) input (some (nodes, rest))) :
      Runs rules (.expression (.sequence parts)) input
        (some ([.ofChildren nodes], rest))
  | sequenceFails
      {parts : List (Expression Rule)}
      {input : Text}
      (all : Runs rules (.all parts) input none) :
      Runs rules (.expression (.sequence parts)) input none
  | choice
      {options : List (Expression Rule)}
      {input rest : Text}
      {nodes : List (Node Rule)}
      (first : Runs rules (.first options) input (some (nodes, rest))) :
      Runs rules (.expression (.choice options)) input
        (some ([.ofChildren nodes], rest))
  | choiceFails
      {options : List (Expression Rule)}
      {input : Text}
      (first : Runs rules (.first options) input none) :
      Runs rules (.expression (.choice options)) input none
  | many
      {item : Expression Rule}
      {input rest : Text}
      {nodes : List (Node Rule)}
      (repeated : Runs rules (.repeated item) input (some (nodes, rest))) :
      Runs rules (.expression (.many item)) input
        (some ([.ofChildren nodes], rest))
  | allNil
      {input : Text} :
      Runs rules (.all []) input (some ([], input))
  | allCons
      {part : Expression Rule}
      {parts : List (Expression Rule)}
      {input middle rest : Text}
      {nodes more : List (Node Rule)}
      (matchesFirst : Runs rules (.expression part) input (some (nodes, middle)))
      (matchesRest : Runs rules (.all parts) middle (some (more, rest))) :
      Runs rules (.all (part :: parts)) input (some (nodes ++ more, rest))
  | allFailsFirst
      {part : Expression Rule}
      {parts : List (Expression Rule)}
      {input : Text}
      (fails : Runs rules (.expression part) input none) :
      Runs rules (.all (part :: parts)) input none
  | allFailsLater
      {part : Expression Rule}
      {parts : List (Expression Rule)}
      {input middle : Text}
      {nodes : List (Node Rule)}
      (matchesFirst : Runs rules (.expression part) input (some (nodes, middle)))
      (fails : Runs rules (.all parts) middle none) :
      Runs rules (.all (part :: parts)) input none
  | firstNil
      {input : Text} :
      Runs rules (.first []) input none
  | firstMatches
      {option : Expression Rule}
      {options : List (Expression Rule)}
      {input rest : Text}
      {nodes : List (Node Rule)}
      (takes : Runs rules (.expression option) input (some (nodes, rest))) :
      Runs rules (.first (option :: options)) input (some (nodes, rest))
  | firstFails
      {option : Expression Rule}
      {options : List (Expression Rule)}
      {input : Text}
      {outcome : Outcome Rule}
      (fails : Runs rules (.expression option) input none)
      (later : Runs rules (.first options) input outcome) :
      Runs rules (.first (option :: options)) input outcome
  | repeatedStops
      {item : Expression Rule}
      {input : Text}
      (fails : Runs rules (.expression item) input none) :
      Runs rules (.repeated item) input (some ([], input))
  | repeatedMore
      {item : Expression Rule}
      {input middle rest : Text}
      {nodes more : List (Node Rule)}
      (takes : Runs rules (.expression item) input (some (nodes, middle)))
      (goesOn : Runs rules (.repeated item) middle (some (more, rest))) :
      Runs rules (.repeated item) input (some (nodes ++ more, rest))

variable {Rule : Type} {rules : Rule → Expression Rule}

/-- A text is matched in one way. -/
theorem Runs.unique
    {task : Task Rule}
    {input : Text}
    {outcome other : Outcome Rule}
    (runs : Runs rules task input outcome)
    (runsToo : Runs rules task input other) :
    outcome = other := by
  induction runs generalizing other with
  | literal shape =>
      cases runsToo with
      | literal otherShape =>
          rw [List.append_cancel_left (shape.symm.trans otherShape)]
      | literalFails differs =>
          exact (differs ⟨_, shape.symm⟩).elim
  | literalFails differs =>
      cases runsToo with
      | literal shape => exact (differs ⟨_, shape.symm⟩).elim
      | literalFails => rfl
  | oneOf isOne =>
      cases runsToo with
      | oneOf => rfl
      | oneOfFails isNone => exact (isNone _ rfl isOne).elim
  | oneOfFails isNone =>
      cases runsToo with
      | oneOf isOne => exact (isNone _ rfl isOne).elim
      | oneOfFails => rfl
  | noneOf nonempty =>
      cases runsToo with
      | noneOf => rfl
      | noneOfFails stops => exact (nonempty stops).elim
  | noneOfFails stops =>
      cases runsToo with
      | noneOf nonempty => exact (nonempty stops).elim
      | noneOfFails => rfl
  | rule body inductionHypothesis =>
      cases runsToo with
      | rule otherBody =>
          cases inductionHypothesis otherBody
          rfl
      | ruleFails otherBody =>
          cases inductionHypothesis otherBody
  | ruleFails body inductionHypothesis =>
      cases runsToo with
      | rule otherBody => cases inductionHypothesis otherBody
      | ruleFails => rfl
  | sequence all inductionHypothesis =>
      cases runsToo with
      | sequence otherAll =>
          cases inductionHypothesis otherAll
          rfl
      | sequenceFails otherAll => cases inductionHypothesis otherAll
  | sequenceFails all inductionHypothesis =>
      cases runsToo with
      | sequence otherAll => cases inductionHypothesis otherAll
      | sequenceFails => rfl
  | choice first inductionHypothesis =>
      cases runsToo with
      | choice otherFirst =>
          cases inductionHypothesis otherFirst
          rfl
      | choiceFails otherFirst => cases inductionHypothesis otherFirst
  | choiceFails first inductionHypothesis =>
      cases runsToo with
      | choice otherFirst => cases inductionHypothesis otherFirst
      | choiceFails => rfl
  | many repeated inductionHypothesis =>
      cases runsToo with
      | many otherRepeated =>
          cases inductionHypothesis otherRepeated
          rfl
  | allNil =>
      cases runsToo with
      | allNil => rfl
  | allCons _ _ firstHypothesis restHypothesis =>
      cases runsToo with
      | allCons otherFirst otherRest =>
          cases firstHypothesis otherFirst
          cases restHypothesis otherRest
          rfl
      | allFailsFirst otherFirst => cases firstHypothesis otherFirst
      | allFailsLater otherFirst otherRest =>
          cases firstHypothesis otherFirst
          cases restHypothesis otherRest
  | allFailsFirst _ firstHypothesis =>
      cases runsToo with
      | allCons otherFirst => cases firstHypothesis otherFirst
      | allFailsFirst => rfl
      | allFailsLater => rfl
  | allFailsLater _ _ firstHypothesis restHypothesis =>
      cases runsToo with
      | allCons otherFirst otherRest =>
          cases firstHypothesis otherFirst
          cases restHypothesis otherRest
      | allFailsFirst => rfl
      | allFailsLater => rfl
  | firstNil =>
      cases runsToo with
      | firstNil => rfl
  | firstMatches _ inductionHypothesis =>
      cases runsToo with
      | firstMatches otherTakes => exact inductionHypothesis otherTakes
      | firstFails otherFails => cases inductionHypothesis otherFails
  | firstFails _ _ failHypothesis laterHypothesis =>
      cases runsToo with
      | firstMatches otherTakes => cases failHypothesis otherTakes
      | firstFails _ otherLater => exact laterHypothesis otherLater
  | repeatedStops _ inductionHypothesis =>
      cases runsToo with
      | repeatedStops => rfl
      | repeatedMore otherTakes => cases inductionHypothesis otherTakes
  | repeatedMore _ _ takeHypothesis restHypothesis =>
      cases runsToo with
      | repeatedStops otherFails => cases takeHypothesis otherFails
      | repeatedMore otherTakes otherRest =>
          cases takeHypothesis otherTakes
          cases restHypothesis otherRest
          rfl

end Peg

end KeyAudit
