import KeyAudit.Proofs.Flow.Lattice
import KeyAudit.Proofs.Outcome
import Mathlib.Logic.Function.Basic

namespace KeyAudit

/-!
# Joins as a semilattice

In a lawful lattice in which any two facts below a third one have a join, joins
do not depend on the order or the grouping of their facts, also where they are
missing.  The order that the lattice decides is the one that its joins give.  A
map that carries joins and order of one lattice to another carries these laws.
-/

namespace Lattice

variable {Fault Fact OtherFact : Type}

/-- The join of two facts, joined with a third one. -/
def joinLeft
    (lattice : Lattice Fault Fact)
    (first second third : Fact) :
    Except Fault Fact := do
  let joined ← lattice.join first second
  lattice.join joined third

/-- A fact, joined with the join of two others. -/
def joinRight
    (lattice : Lattice Fault Fact)
    (first second third : Fact) :
    Except Fault Fact := do
  let joined ← lattice.join second third
  lattice.join first joined

/--
Joins are commutative, associative and idempotent with bottom as their identity,
where a missing join is missing on both sides of a law.  One fact is below
another when their join is the other, and only equal facts count as the same.
-/
structure Semilattice (lattice : Lattice Fault Fact) : Prop where
  comm :
    ∀ first second,
      (lattice.join first second).toOption =
        (lattice.join second first).toOption
  assoc :
    ∀ first second third,
      (lattice.joinLeft first second third).toOption =
        (lattice.joinRight first second third).toOption
  idem : ∀ fact, lattice.join fact fact = .ok fact
  bottom_join : ∀ fact, lattice.join lattice.bottom fact = .ok fact
  le_iff :
    ∀ first second,
      lattice.le first second = .ok true ↔
        lattice.join first second = .ok second
  same_iff : ∀ first second, lattice.same first second = true ↔ first = second

/-- Any two facts have a join and can be compared, and one fact is above all others. -/
structure Bounded (lattice : Lattice Fault Fact) (top : Fact) : Prop where
  join_ok : ∀ first second, ∃ joined, lattice.join first second = .ok joined
  le_ok : ∀ first second, ∃ answer, lattice.le first second = .ok answer
  top_join : ∀ fact, lattice.join top fact = .ok top

/--
The facts of one kind have joins of their kind and can be compared.  The order is
a partial order, in which a join is the least upper bound.
-/
structure OrderedOn
    (lattice : Lattice Fault Fact)
    (Kind : Fact → Prop) : Prop where
  join_ok :
    ∀ {first second},
      Kind first →
      Kind second →
        ∃ joined, lattice.join first second = .ok joined ∧ Kind joined
  le_ok :
    ∀ {first second},
      Kind first →
      Kind second →
        ∃ answer, lattice.le first second = .ok answer
  refl : ∀ {fact}, Kind fact → lattice.Below fact fact
  antisymm :
    ∀ {first second},
      Kind first →
      Kind second →
      lattice.Below first second →
      lattice.Below second first →
        first = second
  trans :
    ∀ {first second third},
      Kind first →
      Kind second →
      Kind third →
      lattice.Below first second →
      lattice.Below second third →
        lattice.Below first third
  join_below_iff :
    ∀ {first second upper joined},
      Kind first →
      Kind second →
      Kind upper →
      lattice.join first second = .ok joined →
        (lattice.Below joined upper ↔
          lattice.Below first upper ∧ lattice.Below second upper)

namespace Lawful

variable {lattice : Lattice Fault Fact}

/-- A join is below exactly the facts that are above both of its facts. -/
theorem join_below_iff
    (lawful : lattice.Lawful)
    {first second joined upper : Fact}
    (joins : lattice.join first second = .ok joined) :
    lattice.Below joined upper ↔
      lattice.Below first upper ∧ lattice.Below second upper := by
  constructor
  · intro below
    exact
      ⟨lawful.trans (lawful.below_join_left joins) below,
        lawful.trans (lawful.below_join_right joins) below⟩
  · rintro ⟨firstBelow, secondBelow⟩
    exact lawful.join_below joins firstBelow secondBelow

/-- A fact is told by the facts above it. -/
theorem eq_of_upper
    (lawful : lattice.Lawful)
    {first second : Fact}
    (same :
      ∀ upper, lattice.Below first upper ↔ lattice.Below second upper) :
    first = second :=
  lawful.antisymm
    ((same second).mpr (lawful.refl second))
    ((same first).mp (lawful.refl first))

section Joins

variable
  (lawful : lattice.Lawful)
  (joins :
    ∀ {first second upper},
      lattice.Below first upper →
      lattice.Below second upper →
        ∃ joined, lattice.join first second = .ok joined)

include lawful joins

/-- A fact is the join of two facts when it is their least upper bound. -/
theorem join_eq_ok
    {first second joined : Fact} :
    lattice.join first second = .ok joined ↔
      ∀ upper,
        lattice.Below joined upper ↔
          lattice.Below first upper ∧ lattice.Below second upper := by
  constructor
  · intro isJoin upper
    exact lawful.join_below_iff isJoin
  · intro least
    obtain ⟨firstBelow, secondBelow⟩ := (least joined).mp (lawful.refl joined)
    obtain ⟨other, isJoin⟩ := joins firstBelow secondBelow
    have same : other = joined := by
      apply lawful.eq_of_upper
      intro upper
      rw [lawful.join_below_iff isJoin, least]
    rw [isJoin, same]

/-- Three facts joined from the left have their least upper bound as their join. -/
theorem joinLeft_eq_ok
    {first second third joined : Fact} :
    lattice.joinLeft first second third = .ok joined ↔
      ∀ upper,
        lattice.Below joined upper ↔
          lattice.Below first upper ∧
            lattice.Below second upper ∧ lattice.Below third upper := by
  rw [joinLeft, Outcome.bind_eq_ok]
  constructor
  · rintro ⟨partly, isJoin, fully⟩ upper
    rw [lawful.join_below_iff fully, lawful.join_below_iff isJoin, and_assoc]
  · intro least
    obtain ⟨firstBelow, secondBelow, thirdBelow⟩ :=
      (least joined).mp (lawful.refl joined)
    obtain ⟨partly, isJoin⟩ := joins firstBelow secondBelow
    refine ⟨partly, isJoin, (lawful.join_eq_ok joins).mpr ?_⟩
    intro upper
    rw [least, lawful.join_below_iff isJoin, and_assoc]

/-- Three facts joined from the right have their least upper bound as their join. -/
theorem joinRight_eq_ok
    {first second third joined : Fact} :
    lattice.joinRight first second third = .ok joined ↔
      ∀ upper,
        lattice.Below joined upper ↔
          lattice.Below first upper ∧
            lattice.Below second upper ∧ lattice.Below third upper := by
  rw [joinRight, Outcome.bind_eq_ok]
  constructor
  · rintro ⟨partly, isJoin, fully⟩ upper
    rw [lawful.join_below_iff fully, lawful.join_below_iff isJoin]
  · intro least
    obtain ⟨firstBelow, secondBelow, thirdBelow⟩ :=
      (least joined).mp (lawful.refl joined)
    obtain ⟨partly, isJoin⟩ := joins secondBelow thirdBelow
    refine ⟨partly, isJoin, (lawful.join_eq_ok joins).mpr ?_⟩
    intro upper
    rw [least, lawful.join_below_iff isJoin]

/-- Joins that exist below every upper bound form a semilattice. -/
theorem semilattice : lattice.Semilattice where
  comm first second := by
    apply Outcome.toOption_eq
    intro joined
    simp only [lawful.join_eq_ok joins, and_comm]
  assoc first second third := by
    apply Outcome.toOption_eq
    intro joined
    rw [lawful.joinLeft_eq_ok joins, lawful.joinRight_eq_ok joins]
  idem fact := by
    simp [lawful.join_eq_ok joins]
  bottom_join fact := by
    simp [lawful.join_eq_ok joins, lawful.bottom_below]
  le_iff first second := by
    rw [lawful.join_eq_ok joins]
    constructor
    · intro below upper
      exact
        ⟨fun secondBelow => ⟨lawful.trans below secondBelow, secondBelow⟩,
          fun both => both.2⟩
    · intro least
      exact ((least second).mp (lawful.refl second)).1
  same_iff _ _ := lawful.same_iff

end Joins

end Lawful

/-- A map carries bottom, joins, comparisons and sameness of one lattice to another. -/
structure Carries
    (source : Lattice Fault Fact)
    (target : Lattice Fault OtherFact)
    (carry : Fact → OtherFact) : Prop where
  bottom : carry source.bottom = target.bottom
  join :
    ∀ first second,
      target.join (carry first) (carry second) =
        (source.join first second).map carry
  le :
    ∀ first second,
      target.le (carry first) (carry second) = source.le first second
  same :
    ∀ first second,
      target.same (carry first) (carry second) = source.same first second

namespace Carries

variable
  {source : Lattice Fault Fact}
  {target : Lattice Fault OtherFact}
  {carry : Fact → OtherFact}

/-- Joins of three facts are carried. -/
theorem joinLeft
    (carries : source.Carries target carry)
    (first second third : Fact) :
    target.joinLeft (carry first) (carry second) (carry third) =
      (source.joinLeft first second third).map carry := by
  rw [Lattice.joinLeft, Lattice.joinLeft, carries.join]
  cases source.join first second with
  | error fault =>
      rfl
  | ok joined =>
      exact carries.join joined third

theorem joinRight
    (carries : source.Carries target carry)
    (first second third : Fact) :
    target.joinRight (carry first) (carry second) (carry third) =
      (source.joinRight first second third).map carry := by
  rw [Lattice.joinRight, Lattice.joinRight, carries.join]
  cases source.join second third with
  | error fault =>
      rfl
  | ok joined =>
      exact carries.join first joined

/-- A one-to-one map onto all facts carries the laws of joins. -/
theorem semilattice
    (carries : source.Carries target carry)
    (bijective : Function.Bijective carry)
    (laws : source.Semilattice) :
    target.Semilattice where
  comm first second := by
    obtain ⟨first, rfl⟩ := bijective.2 first
    obtain ⟨second, rfl⟩ := bijective.2 second
    simp only [carries.join, Outcome.toOption_map, laws.comm first second]
  assoc first second third := by
    obtain ⟨first, rfl⟩ := bijective.2 first
    obtain ⟨second, rfl⟩ := bijective.2 second
    obtain ⟨third, rfl⟩ := bijective.2 third
    simp only [carries.joinLeft, carries.joinRight, Outcome.toOption_map,
      laws.assoc first second third]
  idem fact := by
    obtain ⟨fact, rfl⟩ := bijective.2 fact
    rw [carries.join, laws.idem]
    rfl
  bottom_join fact := by
    obtain ⟨fact, rfl⟩ := bijective.2 fact
    rw [← carries.bottom, carries.join, laws.bottom_join]
    rfl
  le_iff first second := by
    obtain ⟨first, rfl⟩ := bijective.2 first
    obtain ⟨second, rfl⟩ := bijective.2 second
    rw [carries.le, laws.le_iff, carries.join, Outcome.map_eq_ok]
    simp [bijective.1.eq_iff]
  same_iff first second := by
    obtain ⟨first, rfl⟩ := bijective.2 first
    obtain ⟨second, rfl⟩ := bijective.2 second
    rw [carries.same, laws.same_iff, bijective.1.eq_iff]

/-- A map onto all facts carries the fact above all others. -/
theorem bounded
    (carries : source.Carries target carry)
    (surjective : Function.Surjective carry)
    {top : Fact}
    (bounds : source.Bounded top) :
    target.Bounded (carry top) where
  join_ok first second := by
    obtain ⟨first, rfl⟩ := surjective first
    obtain ⟨second, rfl⟩ := surjective second
    obtain ⟨joined, joins⟩ := bounds.join_ok first second
    exact ⟨carry joined, by rw [carries.join, joins]; rfl⟩
  le_ok first second := by
    obtain ⟨first, rfl⟩ := surjective first
    obtain ⟨second, rfl⟩ := surjective second
    rw [carries.le]
    exact bounds.le_ok first second
  top_join fact := by
    obtain ⟨fact, rfl⟩ := surjective fact
    rw [carries.join, bounds.top_join]
    rfl

end Carries

end Lattice

namespace Flat

variable {Value : Type} [DecidableEq Value]

/-- Any two flat facts have a join, and anything is above all of them. -/
theorem lattice_bounded
    (Fault : Type) :
    (lattice Fault Value).Bounded .top where
  join_ok first second := ⟨join first second, rfl⟩
  le_ok first second := ⟨le first second, rfl⟩
  top_join fact := by
    cases fact <;> rfl

/-- Flat facts form a semilattice. -/
theorem lattice_semilattice
    (Fault : Type) :
    (lattice Fault Value).Semilattice :=
  (lattice_lawful Fault).semilattice fun {first second _} _ _ =>
    (lattice_bounded Fault).join_ok first second

end Flat

end KeyAudit
