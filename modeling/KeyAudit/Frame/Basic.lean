import KeyAudit.Flow.Lattice
import KeyAudit.Position
import KeyAudit.Text.Quoted

namespace KeyAudit

/-!
# Frames

A frame says what is known of the local slots and of the words on the operand
stack at one point of a method.  A word is known to hold a string literal or
nothing is known of it.  Values of two words take two slots or two words on the
stack.
-/

/-- What is known of a word. -/
inductive Value where
  | literal (text : Text)
  | unknown
  deriving Repr, DecidableEq

namespace Value

/-- What is known when either of two values may be there. -/
def join (first second : Value) : Value :=
  if first = second then first else .unknown

/-- The listing form of a value. -/
def label : Value → Text
  | .literal text => "Constant(" ++ text.quoted ++ ")"
  | .unknown => "NonConstant"

/-- The text of a known literal. -/
def literal? : Value → Option Text
  | .literal text => some text
  | .unknown => none

/-- Join position by position, as far as both lists go. -/
def joinAll (first second : List Value) : List Value :=
  List.zipWith join first second

/-- Values with a least element for points not reached yet. -/
def fact (value : Option Value) : Flat Text :=
  match value with
  | none => .bottom
  | some (.literal text) => .value text
  | some .unknown => .top

/-- The value of a fact, where none stands for no value so far. -/
def ofFact : Flat Text → Option Value
  | .bottom => none
  | .value text => some (.literal text)
  | .top => some .unknown

/-- Join of values of which none stands for no value so far. -/
def joinFacts : Option Value → Option Value → Option Value
  | none, second => second
  | first, none => first
  | some first, some second => some (join first second)

/-- Whether one value, or no value so far, implies another. -/
def factLe : Option Value → Option Value → Bool
  | none, _ => true
  | some _, some .unknown => true
  | some first, some second => first == second
  | some _, none => false

/-- The lattice of values, with no value so far as its least element. -/
def lattice (Fault : Type) : Lattice Fault (Option Value) where
  bottom := none
  join first second := .ok (joinFacts first second)
  le first second := .ok (factLe first second)
  same first second := factLe first second && factLe second first

end Value

/-- Why the frames of a method cannot be computed. -/
inductive AnalysisFault where
  | emptyStack
  | underflow (needed available : Nat)
  | slotOutOfRange (slot : Int) (available : Nat)
  | depthMismatch (first second : Nat)
  | localMismatch (first second : Nat)
  | noFixpoint (method : Text) (visits : Nat)
  deriving Repr, DecidableEq

namespace AnalysisFault

/-- The wording of an analysis fault. -/
def message : AnalysisFault → Text
  | .emptyStack => "operand stack underflow"
  | .underflow needed available =>
      "operand stack underflow: need " ++ Text.ofNat needed ++ " words, have " ++
        Text.ofNat available
  | .slotOutOfRange slot available =>
      "local slot " ++ Text.ofInt slot ++ " out of range (max_locals=" ++
        Text.ofNat available ++ ")"
  | .depthMismatch first second =>
      "stack depth mismatch at join point: " ++ Text.ofNat first ++ " vs " ++ Text.ofNat second
  | .localMismatch first second =>
      "local count mismatch at join point: " ++ Text.ofNat first ++ " vs " ++ Text.ofNat second
  | .noFixpoint method visits =>
      let method : Text := if method.isEmpty then "<method>" else method
      "no fixpoint for " ++ method ++ " after " ++ Text.ofNat visits ++ " iterations"

end AnalysisFault

/-- Local slots and the words on the stack, the top of the stack last. -/
structure Frame where
  locals : List Value
  stack : List Value
  deriving Repr, DecidableEq

namespace Frame

/-- The frame at the entry of a method: nothing is known, and the stack is empty. -/
def entry (maxLocals : Nat) : Frame :=
  ⟨List.replicate maxLocals .unknown, []⟩

/-- The number of words on the stack. -/
def depth (frame : Frame) : Nat :=
  frame.stack.length

/-- The word at a distance from the top of the stack. -/
def peek (frame : Frame) (distance : Nat) : Except AnalysisFault Value :=
  match frame.stack.reverse[distance]? with
  | some value => .ok value
  | none => .error .emptyStack

/--
The word at a distance from the top of the stack.  A negative distance counts
from the bottom, where -1 is the lowest word, and may lead to no word.
-/
def wordAt (frame : Frame) (distance : Int) : Except AnalysisFault (Option Value) :=
  match distance with
  | .ofNat distance => (frame.peek distance).map some
  | .negSucc height => .ok frame.stack[height]?

/-- Put words on the stack, the last one on top. -/
def push (frame : Frame) (words : List Value) : Frame :=
  ⟨frame.locals, frame.stack ++ words⟩

/-- Put words on the stack of which nothing is known. -/
def pushUnknown (frame : Frame) (count : Nat) : Frame :=
  frame.push (List.replicate count .unknown)

/-- Take words off the stack; they come deepest first. -/
def pop (frame : Frame) (count : Nat) : Except AnalysisFault (Frame × List Value) :=
  if frame.depth < count then
    .error (.underflow count frame.depth)
  else
    .ok (⟨frame.locals, frame.stack.take (frame.depth - count)⟩,
      frame.stack.drop (frame.depth - count))

/-- Take words off the stack; a negative count says how many words stay. -/
def split (frame : Frame) (count : Int) : Except AnalysisFault (Frame × List Value) :=
  match count with
  | .ofNat count => frame.pop count
  | .negSucc kept =>
      .ok (⟨frame.locals, frame.stack.take (kept + 1)⟩, frame.stack.drop (kept + 1))

/-- Take words off the stack and forget them. -/
def drop (frame : Frame) (count : Nat) : Except AnalysisFault Frame :=
  (frame.pop count).map Prod.fst

/-- Require slots from an index on to exist. -/
def checkSlots (frame : Frame) (slot count : Int) : Except AnalysisFault Nat :=
  if slot < 0 ∨ (frame.locals.length : Int) < slot + count then
    .error (.slotOutOfRange slot frame.locals.length)
  else
    .ok slot.toNat

/-- The values of slots from an index on. -/
def load (frame : Frame) (slot : Int) (count : Nat) : Except AnalysisFault (List Value) := do
  let first ← frame.checkSlots slot count
  return (frame.locals.drop first).take count

/--
The values of slots from an index on.  A negative count ends before the index,
or that far from the last slot if it ends before the first one.
-/
def slice (frame : Frame) (slot count : Int) : Except AnalysisFault (List Value) :=
  match count with
  | .ofNat count => frame.load slot count
  | .negSucc _ => do
      let first ← frame.checkSlots slot count
      return (frame.locals.take (cutAt frame.locals.length (slot + count))).drop first

/-- Put values into the slots from an index on. -/
def store (frame : Frame) (slot : Int) (words : List Value) : Except AnalysisFault Frame := do
  let first ← frame.checkSlots slot words.length
  let locals := frame.locals.take first ++ words ++ frame.locals.drop (first + words.length)
  return ⟨locals, frame.stack⟩

/-- The same slots with other words on the stack. -/
def withStack (frame : Frame) (stack : List Value) : Frame :=
  ⟨frame.locals, stack⟩

/-- The listing form of a frame. -/
def label (frame : Frame) : Text :=
  "locals=[" ++ Text.joinWith ", " (frame.locals.map Value.label) ++ "] stack=[" ++
    Text.joinWith ", " (frame.stack.map Value.label) ++ "]"

/-- What is known where two frames of one shape meet. -/
def join (first second : Frame) : Except AnalysisFault Frame :=
  if first.stack.length ≠ second.stack.length then
    .error (.depthMismatch first.stack.length second.stack.length)
  else if first.locals.length ≠ second.locals.length then
    .error (.localMismatch first.locals.length second.locals.length)
  else if first = second then
    .ok first
  else
    .ok ⟨Value.joinAll first.locals second.locals, Value.joinAll first.stack second.stack⟩

/--
The frame at a handler of an instruction.  The exception may come before or
after the instruction changed its slots, and it is the only word on the stack.
-/
def atHandler (before after : Frame) : Frame :=
  ⟨Value.joinAll before.locals after.locals, [.unknown]⟩

/-- Join of frames of which none stands for a point not reached yet. -/
def joinFacts : Option Frame → Option Frame → Except AnalysisFault (Option Frame)
  | none, second => .ok second
  | first, none => .ok first
  | some first, some second => (first.join second).map some

/-- Whether one frame is at least as precise as another of its shape. -/
def factLe : Option Frame → Option Frame → Except AnalysisFault Bool
  | none, _ => .ok true
  | some _, none => .ok false
  | some first, some second => (first.join second).map fun joined => joined == second

end Frame

end KeyAudit
