import KeyAudit.Flow.Lattice
import Mathlib.Data.List.Basic

namespace KeyAudit

/-!
# The laws of lattices of facts

The order of a lattice is the one that it decides itself.  A join may be
missing, but where it is there it is the least upper bound.
-/

namespace Lattice

variable {Fault Fact : Type}

/-- One fact is below another when the lattice says so. -/
def Below (lattice : Lattice Fault Fact) (first second : Fact) : Prop :=
  lattice.le first second = .ok true

/--
The facts are ordered with bottom as the least one, a join is the least upper
bound whenever there is one, and only equal facts count as the same.
-/
structure Lawful (lattice : Lattice Fault Fact) : Prop where
  refl : ∀ fact, lattice.Below fact fact
  trans :
    ∀ {first second third},
      lattice.Below first second →
      lattice.Below second third →
      lattice.Below first third
  antisymm :
    ∀ {first second},
      lattice.Below first second →
      lattice.Below second first →
      first = second
  bottom_below : ∀ fact, lattice.Below lattice.bottom fact
  below_join_left :
    ∀ {first second joined},
      lattice.join first second = .ok joined →
      lattice.Below first joined
  below_join_right :
    ∀ {first second joined},
      lattice.join first second = .ok joined →
      lattice.Below second joined
  join_below :
    ∀ {first second joined upper},
      lattice.join first second = .ok joined →
      lattice.Below first upper →
      lattice.Below second upper →
      lattice.Below joined upper
  same_iff : ∀ {first second}, lattice.same first second = true ↔ first = second

namespace Lawful

/-- Only bottom is below bottom. -/
theorem eq_bottom
    {lattice : Lattice Fault Fact}
    (lawful : lattice.Lawful)
    {fact : Fact}
    (below : lattice.Below fact lattice.bottom) :
    fact = lattice.bottom :=
  lawful.antisymm below (lawful.bottom_below fact)

/-- A fact above one that is not bottom is not bottom. -/
theorem ne_bottom_of_below
    {lattice : Lattice Fault Fact}
    (lawful : lattice.Lawful)
    {first second : Fact}
    (below : lattice.Below first second)
    (firstNe : first ≠ lattice.bottom) :
    second ≠ lattice.bottom := by
  rintro rfl
  exact firstNe (lawful.eq_bottom below)

/-- A join with bottom is the other fact. -/
theorem eq_of_join_bottom
    {lattice : Lattice Fault Fact}
    (lawful : lattice.Lawful)
    {fact joined : Fact}
    (joins : lattice.join lattice.bottom fact = .ok joined) :
    joined = fact :=
  lawful.antisymm
    (lawful.join_below joins (lawful.bottom_below fact) (lawful.refl fact))
    (lawful.below_join_right joins)

end Lawful

end Lattice

namespace Flat

variable {Value : Type} [DecidableEq Value]

/-- Nothing is below every value, and every value is below anything. -/
theorem le_iff
    {first second : Flat Value} :
    le first second = true ↔
      first = .bottom ∨ second = .top ∨ first = second := by
  cases first <;> cases second <;> simp [le]

/-- The join of flat facts is their least upper bound. -/
theorem join_le_iff
    {first second upper : Flat Value} :
    le (join first second) upper = true ↔
      le first upper = true ∧ le second upper = true := by
  cases first with
  | bottom =>
      simp [join, le]
  | value firstValue =>
      cases second with
      | bottom =>
          simp [join, le]
      | value secondValue =>
          by_cases same : firstValue = secondValue
          · simp [join, same]
          · -- Two different values have nothing above them but anything.
            cases upper with
            | bottom =>
                simp [join, le, same]
            | value upperValue =>
                have notBoth :
                    ¬(firstValue = upperValue ∧ secondValue = upperValue) := by
                  rintro ⟨rfl, rfl⟩
                  exact same rfl
                simpa [join, le, same] using notBoth
            | top =>
                simp [join, le, same]
      | top =>
          cases upper <;> simp [join, le]
  | top =>
      cases second <;> cases upper <;> simp [join, le]

/-- Flat facts form a lawful lattice. -/
theorem lattice_lawful
    (Fault : Type) :
    (lattice Fault Value).Lawful := by
  have below_iff
      {first second : Flat Value} :
      (lattice Fault Value).Below first second ↔
        le first second = true := by
    simp [Lattice.Below, lattice]
  have joined_eq
      {first second joined : Flat Value}
      (joins : (lattice Fault Value).join first second = .ok joined) :
      joined = join first second := by
    simpa [lattice] using joins.symm
  have selfBelow
      (fact : Flat Value) :
      le fact fact = true :=
    le_iff.mpr (Or.inr (Or.inr rfl))
  have ordered
      {first second : Flat Value}
      (upwards : le first second = true)
      (downwards : le second first = true) :
      first = second := by
    cases first <;> cases second <;> simp_all [le]
  refine
    { refl := fun fact => below_iff.mpr (selfBelow fact)
      trans := ?_
      antisymm := ?_
      bottom_below := fun fact => below_iff.mpr (by simp [lattice, le])
      below_join_left := ?_
      below_join_right := ?_
      join_below := ?_
      same_iff := ?_ }
  · intro first second third firstBelow secondBelow
    rw [below_iff, le_iff] at *
    rcases firstBelow with isBottom | isTop | same
    · exact Or.inl isBottom
    · subst second
      rcases secondBelow with topIsBottom | isTop | same
      · cases topIsBottom
      · exact Or.inr (Or.inl isTop)
      · exact Or.inr (Or.inl same.symm)
    · rw [same]
      exact secondBelow
  · intro first second upwards downwards
    exact ordered (below_iff.mp upwards) (below_iff.mp downwards)
  · intro first second joined joins
    rw [joined_eq joins, below_iff]
    exact (join_le_iff.mp (selfBelow (join first second))).1
  · intro first second joined joins
    rw [joined_eq joins, below_iff]
    exact (join_le_iff.mp (selfBelow (join first second))).2
  · intro first second joined upper joins firstBelow secondBelow
    rw [joined_eq joins, below_iff]
    exact join_le_iff.mpr
      ⟨below_iff.mp firstBelow, below_iff.mp secondBelow⟩
  · intro first second
    constructor
    · intro same
      have both :
          le first second = true ∧ le second first = true := by
        simpa [lattice] using same
      exact ordered both.1 both.2
    · rintro rfl
      simp [lattice, selfBelow]

end Flat

end KeyAudit
