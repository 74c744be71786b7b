import KeyAudit.Proofs.Flow.Semilattice
import KeyAudit.Proofs.Frame.Order

namespace KeyAudit

/-!
# Values and frames as semilattices

Values with a least element are flat facts under other names, so they have all
laws of flat facts.  Frames have joins among those of one shape only.  There the
order is a partial order in which the join is the least upper bound, and a join
across shapes is missing however facts are grouped.
-/

namespace Value

/-- Every value, or no value so far, is one flat fact. -/
theorem ofFact_bijective : Function.Bijective ofFact := by
  constructor
  · intro first second same
    cases first <;> cases second <;> simp_all [ofFact]
  · intro value
    refine ⟨fact value, ?_⟩
    rcases value with _ | text | _ <;> rfl

/-- Two values join as the facts that they are. -/
theorem ofFact_join
    (first second : Flat Text) :
    ofFact (first.join second) = joinFacts (ofFact first) (ofFact second) := by
  cases first with
  | bottom =>
      rfl
  | value firstText =>
      cases second with
      | bottom =>
          rfl
      | value secondText =>
          by_cases same : firstText = secondText
          · simp [Flat.join, ofFact, joinFacts, join, same]
          · simp [Flat.join, ofFact, joinFacts, join, same]
      | top =>
          rfl
  | top =>
      cases second <;> rfl

/-- Two values compare as the facts that they are. -/
theorem ofFact_le
    (first second : Flat Text) :
    factLe (ofFact first) (ofFact second) = first.le second := by
  cases first with
  | bottom =>
      rfl
  | value firstText =>
      cases second with
      | bottom =>
          rfl
      | value secondText =>
          by_cases same : firstText = secondText
          · simp [Flat.le, ofFact, factLe, same]
          · simp [Flat.le, ofFact, factLe, same]
      | top =>
          rfl
  | top =>
      cases second <;> rfl

/-- The lattice of flat facts over texts is carried to the lattice of values. -/
theorem carries_facts
    (Fault : Type) :
    (Flat.lattice Fault Text).Carries (lattice Fault) ofFact where
  bottom := rfl
  join first second := by
    simp [lattice, Flat.lattice, Except.map, ofFact_join]
  le first second := by
    simp [lattice, Flat.lattice, ofFact_le]
  same first second := by
    simp [lattice, Flat.lattice, ofFact_le]

end Value

namespace Frame

/-- Frames of one shape join position by position, equal ones among them. -/
theorem SameShape.join_eq
    {first second : Frame}
    (shape : SameShape first second) :
    first.join second =
      .ok ⟨Value.joinAll first.locals second.locals,
        Value.joinAll first.stack second.stack⟩ :=
  join_eq_ok.mpr ⟨shape, rfl⟩

end Frame

namespace MethodFrames

open KeyAudit.Frame

/-- A fact of a shape is a frame of this shape, or a point not reached yet. -/
def OfShape (locals depth : Nat) (fact : Option Frame) : Prop :=
  ∀ frame ∈ fact,
    frame.locals.length = locals ∧ frame.stack.length = depth

theorem OfShape.same
    {locals depth : Nat}
    {first second : Frame}
    (firstShape : OfShape locals depth (some first))
    (secondShape : OfShape locals depth (some second)) :
    SameShape first second := by
  obtain ⟨firstLocals, firstDepth⟩ := firstShape first rfl
  obtain ⟨secondLocals, secondDepth⟩ := secondShape second rfl
  exact
    ⟨firstLocals.trans secondLocals.symm, firstDepth.trans secondDepth.symm⟩

/-- A join is missing exactly between frames of different shapes. -/
theorem join_fails_iff
    (first second : Option Frame) :
    (∃ fault, lattice.join first second = .error fault) ↔
      ∃ firstFrame secondFrame,
        first = some firstFrame ∧
          second = some secondFrame ∧
            ¬SameShape firstFrame secondFrame := by
  constructor
  · rintro ⟨fault, failed⟩
    rcases first with _ | firstFrame
    · cases failed
    · rcases second with _ | secondFrame
      · cases failed
      · refine ⟨firstFrame, secondFrame, rfl, rfl, ?_⟩
        intro shape
        rw [join_some_eq_ok.mpr ⟨shape, rfl⟩] at failed
        cases failed
  · rintro ⟨firstFrame, secondFrame, rfl, rfl, otherShape⟩
    cases result : lattice.join (some firstFrame) (some secondFrame) with
    | error fault =>
        exact ⟨fault, rfl⟩
    | ok joined =>
        exact (otherShape (join_some_eq_ok.mp result).1).elim

/-- Facts of frames form a semilattice in which joins may be missing. -/
theorem lattice_semilattice : lattice.Semilattice :=
  lattice_lawful.semilattice join_ok_of_below

/-- Facts of one shape have joins of their shape and are ordered by them. -/
theorem lattice_orderedOn
    (locals depth : Nat) :
    lattice.OrderedOn (OfShape locals depth) where
  join_ok {first second} firstShape secondShape := by
    rcases first with _ | firstFrame
    · exact ⟨second, rfl, secondShape⟩
    · rcases second with _ | secondFrame
      · exact ⟨some firstFrame, rfl, firstShape⟩
      · have shape := firstShape.same secondShape
        refine ⟨_, join_some_eq_ok.mpr ⟨shape, rfl⟩, ?_⟩
        rintro frame ⟨⟩
        obtain ⟨ofLocals, ofDepth⟩ := firstShape firstFrame rfl
        have sameShape := joined_shape shape
        exact
          ⟨sameShape.locals.symm.trans ofLocals,
            sameShape.stack.symm.trans ofDepth⟩
  le_ok {first second} firstShape secondShape := by
    rcases first with _ | firstFrame
    · exact ⟨true, rfl⟩
    · rcases second with _ | secondFrame
      · exact ⟨false, rfl⟩
      · refine
          ⟨joined firstFrame secondFrame == secondFrame, ?_⟩
        have joins := join_eq_ok.mpr ⟨firstShape.same secondShape, rfl⟩
        simp [lattice, factLe, joins, checked, Except.map, Except.mapError]
  refl _ := lattice_lawful.refl _
  antisymm _ _ := lattice_lawful.antisymm
  trans _ _ _ := lattice_lawful.trans
  join_below_iff _ _ _ := lattice_lawful.join_below_iff

/--
Flat facts, values and frames are semilattices whose order is that of their
joins.  Flat facts over texts and values always have joins and a fact above all
others, and are one lattice under two names.  Joins of frames are missing exactly
across shapes and are made position by position, and the facts of one shape are
partially ordered with joins as least upper bounds.
-/
theorem joins_form_semilattices
    (Fault : Type) :
    ((Flat.lattice Fault Text).Semilattice ∧
        (Flat.lattice Fault Text).Bounded .top) ∧
      ((Value.lattice Fault).Semilattice ∧
          (Value.lattice Fault).Bounded (some .unknown)) ∧
        (Function.Bijective Value.ofFact ∧
            Value.ofFact .top = some .unknown ∧
              (Flat.lattice Fault Text).Carries (Value.lattice Fault) Value.ofFact) ∧
          lattice.Semilattice ∧
            (∀ first second,
                (∃ fault, lattice.join first second = .error fault) ↔
                  ∃ firstFrame secondFrame,
                    first = some firstFrame ∧
                      second = some secondFrame ∧
                        ¬SameShape firstFrame secondFrame) ∧
              (∀ locals depth,
                  lattice.OrderedOn (OfShape locals depth)) ∧
                ∀ first second,
                  SameShape first second →
                    first.join second =
                      .ok ⟨Value.joinAll first.locals second.locals,
                        Value.joinAll first.stack second.stack⟩ := by
  have carries := Value.carries_facts Fault
  have facts : (Flat.lattice Fault Text).Semilattice :=
    Flat.lattice_semilattice Fault
  have bounds : (Flat.lattice Fault Text).Bounded .top :=
    Flat.lattice_bounded Fault
  refine
    ⟨⟨facts, bounds⟩, ⟨?_, ?_⟩, ⟨Value.ofFact_bijective, rfl, carries⟩,
      lattice_semilattice, join_fails_iff,
      lattice_orderedOn, fun _ _ shape => shape.join_eq⟩
  · exact carries.semilattice Value.ofFact_bijective facts
  · exact carries.bounded Value.ofFact_bijective.2 bounds

end MethodFrames

end KeyAudit
