import KeyAudit.Yaml.Construction

namespace KeyAudit.Yaml

/-!
# The data of a document

The pieces of data that nodes have become are put together.  A collection that
is part of itself becomes a knot.
-/

/-- The kind of a piece that is a collection. -/
def Part.kind : Part → Collection
  | .map _ => .map
  | .set _ => .set
  | .pair _ _ => .pair
  | _ => .list

/-- Data with the numbers of the knots that it takes part in. -/
structure Piece where
  datum : Datum
  /-- The collections around the data that it holds again. -/
  around : List Nat
  /-- The knots that are tied inside of the data. -/
  inside : List Nat

/-- The pieces that are known and hold no collection around them. -/
abbrev Known := Array (Option Piece)

/-- A collection with its number and its parts; it is a knot if it holds itself. -/
def Piece.ofParts (number : Nat) (datum : Datum) (parts : List Piece) : Piece :=
  let around := (parts.flatMap Piece.around).eraseDups
  let inside := (parts.flatMap Piece.inside).eraseDups
  if around.isEmpty && !inside.contains number then
    ⟨datum, [], inside⟩
  else
    ⟨.knot number datum, around.filter (· != number), (number :: inside).eraseDups⟩

/--
Put together the data of a number inside of some collections.  The first number
bounds the depth.
-/
def assemble (parts : Array (Option Part)) : Nat → List Nat → Nat → StateM Known Piece
  | 0, _, _ => return ⟨.null, [], []⟩
  | bound + 1, around, number => do
      match parts.getD number none, (← get).getD number none with
      | none, _ => return ⟨.null, [], []⟩
      | some _, some piece => return piece
      | some part, none =>
          if around.contains number then
            return ⟨.again number part.kind, [number], []⟩
          else
            let inner := assemble parts bound (number :: around)
            let piece : Piece ← match part with
              | .scalar key => pure ⟨.scalar key.value, [], []⟩
              | .list items => do
                  let pieces ← items.mapM inner
                  pure (.ofParts number (.list (pieces.map Piece.datum)) pieces)
              | .map entries => do
                  let pieces ← entries.mapM fun (_, value) => inner value
                  let keys := entries.map fun (key, _) => key.value
                  pure (.ofParts number (.map (keys.zip (pieces.map Piece.datum))) pieces)
              | .set items => pure ⟨.set (items.map Key.value), [], []⟩
              | .pair first second => do
                  let first ← inner first
                  let second ← inner second
                  pure (.ofParts number (.pair first.datum second.datum) [first, second])
            if piece.around.isEmpty then
              modify fun known => known.set! number (some piece)
            return piece

/-- The data of a text; a text without a document holds no data. -/
def read (text : Text) : Except Fault Datum := do
  match ← NodeGraph.ofTokens (tokens text) with
  | none => return .null
  | some graph => do
      let parts ← graph.parts
      let known : Known := Array.replicate parts.size none
      let (piece, _) := (assemble parts (parts.size + 1) [] graph.root).run known
      return piece.datum

end KeyAudit.Yaml
