namespace KeyAudit

/-!
# Positions counted from either end

The items of a list are counted from zero.  A negative number counts from the
end, so that -1 is the last item.
-/

/-- The position in a list of some length, unless there is none. -/
def position? (length : Nat) (number : Int) : Option Nat :=
  let counted := if number < 0 then number + length else number
  if 0 ≤ counted ∧ counted < length then some counted.toNat else none

/-- How many items are before a cut; a cut outside of the list is at its end. -/
def cutAt (length : Nat) (number : Int) : Nat :=
  let counted := if number < 0 then number + length else number
  if length < counted then length else counted.toNat

end KeyAudit
