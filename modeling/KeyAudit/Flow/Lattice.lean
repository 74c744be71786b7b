namespace KeyAudit

/-!
# Lattices of facts

A lattice says how facts from several paths are joined.  Joining may fail when
the facts do not belong to the same program point.
-/

/-- What the solver needs to know about facts. -/
structure Lattice (Fault Fact : Type) where
  /-- The fact at a point that no path has reached. -/
  bottom : Fact
  /-- The least fact that holds whenever one of two facts holds. -/
  join : Fact → Fact → Except Fault Fact
  /-- Whether one fact implies another. -/
  le : Fact → Fact → Except Fault Bool
  /-- Whether two facts are the same. -/
  same : Fact → Fact → Bool

/-- Nothing, one of many incomparable values, or anything. -/
inductive Flat (Value : Type) where
  | bottom
  | value (value : Value)
  | top
  deriving Repr, DecidableEq

namespace Flat

variable {Value : Type} [DecidableEq Value]

/-- Equal facts join to themselves, and different values to anything. -/
def join : Flat Value → Flat Value → Flat Value
  | .bottom, second => second
  | first, .bottom => first
  | .value first, .value second => if first = second then .value first else .top
  | _, _ => .top

/-- Nothing is below everything, and everything is below anything. -/
def le : Flat Value → Flat Value → Bool
  | .bottom, _ => true
  | _, .top => true
  | .value first, .value second => first == second
  | _, _ => false

/-- The lattice of flat facts, in which joining never fails. -/
def lattice (Fault Value : Type) [DecidableEq Value] : Lattice Fault (Flat Value) where
  bottom := .bottom
  join first second := .ok (join first second)
  le first second := .ok (le first second)
  same first second := le first second && le second first

end Flat

end KeyAudit
