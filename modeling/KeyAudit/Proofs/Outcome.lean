import Mathlib.Data.List.Forall2

namespace KeyAudit.Outcome

/-!
# Chains of steps that may fail

A chain gives a value exactly when each of its steps does.  A property that
every step keeps is kept by the whole chain, and a chain of steps that cannot
fail under the property cannot fail.
-/

variable {Fault OtherFault State First Second : Type}

/-- A step followed by another one gives a value when both do. -/
theorem bind_eq_ok
    {result : Except Fault First}
    {next : First → Except Fault Second}
    {value : Second} :
    (result >>= next) = .ok value ↔
      ∃ first, result = .ok first ∧ next first = .ok value := by
  cases result with
  | error fault =>
      simp [bind, Except.bind]
  | ok first =>
      simp [bind, Except.bind]

/-- A step that also changes a state hands the changed state to the next one. -/
theorem bindState_eq_ok
    {step : StateT State (Except Fault) First}
    {next : First → StateT State (Except Fault) Second}
    {state : State}
    {result : Second × State} :
    (step >>= next) state = .ok result ↔
      ∃ first middle,
        step state = .ok (first, middle) ∧ next first middle = .ok result := by
  change (step state >>= fun pair => next pair.1 pair.2) = _ ↔ _
  rw [bind_eq_ok]
  exact Prod.exists

/-- A step followed by another one fails when the first does or the second does after it. -/
theorem bind_eq_error
    {result : Except Fault First}
    {next : First → Except Fault Second}
    {fault : Fault} :
    (result >>= next) = .error fault ↔
      result = .error fault ∨
        ∃ first, result = .ok first ∧ next first = .error fault := by
  cases result with
  | error reason =>
      simp [bind, Except.bind]
  | ok first =>
      simp [bind, Except.bind]

/-- Changing the value of a step does not change whether it gives one. -/
theorem map_eq_ok
    {result : Except Fault First}
    {change : First → Second}
    {value : Second} :
    result.map change = .ok value ↔
      ∃ first, result = .ok first ∧ change first = value := by
  cases result with
  | error fault =>
      simp [Except.map]
  | ok first =>
      simp [Except.map]

/-- Renaming the fault of a step does not change the value that it gives. -/
@[simp] theorem mapError_eq_ok
    {result : Except Fault First}
    {rename : Fault → OtherFault}
    {value : First} :
    result.mapError rename = .ok value ↔ result = .ok value := by
  cases result with
  | error fault =>
      simp [Except.mapError]
  | ok first =>
      simp [Except.mapError]

/-- Two steps that give the same values give one or both fail. -/
theorem toOption_eq
    {first second : Except Fault First}
    (same : ∀ value, first = .ok value ↔ second = .ok value) :
    first.toOption = second.toOption := by
  cases first with
  | error fault =>
      cases second with
      | error fault =>
          rfl
      | ok value =>
          cases (same value).mpr rfl
  | ok value =>
      rw [(same value).mp rfl]

theorem toOption_map
    (result : Except Fault First)
    (change : First → Second) :
    (result.map change).toOption = result.toOption.map change := by
  cases result <;> rfl

/--
A property of the items done so far and of the value reached that every step
keeps holds at the end of a chain that gives a value.
-/
theorem foldlM_invariant
    {step : Second → First → Except Fault Second}
    (Holds : List First → Second → Prop)
    {items : List First}
    (keeps :
      ∀ {done item rest value next},
        items = done ++ item :: rest →
        Holds done value →
        step value item = .ok next →
        Holds (done ++ [item]) next)
    {start final : Second}
    (atStart : Holds [] start)
    (result : items.foldlM step start = .ok final) :
    Holds items final := by
  -- The items split into those done, whose property is known, and the rest.
  suffices general :
      ∀ (rest done : List First) (value : Second),
        items = done ++ rest →
        Holds done value →
        rest.foldlM step value = .ok final →
        Holds items final from
    general items [] start rfl atStart result
  intro rest
  induction rest with
  | nil =>
      intro done value shape holds finished
      have same : value = final := by
        simpa [pure, Except.pure] using finished
      subst final
      rw [shape, List.append_nil]
      exact holds
  | cons item rest inductionHypothesis =>
      intro done value shape holds finished
      rw [List.foldlM_cons, bind_eq_ok] at finished
      obtain ⟨next, stepped, finished⟩ := finished
      exact inductionHypothesis (done ++ [item]) next
        (by rw [shape, List.append_assoc, List.singleton_append])
        (keeps shape holds stepped)
        finished

/-- A chain of steps that give values under a property they keep gives a value. -/
theorem foldlM_ok
    {step : Second → First → Except Fault Second}
    (Holds : Second → Prop)
    {items : List First}
    (succeeds :
      ∀ {item value},
        item ∈ items →
        Holds value →
        ∃ next, step value item = .ok next ∧ Holds next)
    {start : Second}
    (atStart : Holds start) :
    ∃ final, items.foldlM step start = .ok final ∧ Holds final := by
  induction items generalizing start with
  | nil =>
      exact ⟨start, rfl, atStart⟩
  | cons item rest inductionHypothesis =>
      obtain ⟨next, stepped, holds⟩ :=
        succeeds (List.mem_cons_self ..) atStart
      obtain ⟨final, finished, holdsFinal⟩ :=
        inductionHypothesis
          (fun member => succeeds (List.mem_cons_of_mem _ member))
          holds
      refine ⟨final, ?_, holdsFinal⟩
      rw [List.foldlM_cons, bind_eq_ok]
      exact ⟨next, stepped, finished⟩

/-- The results of steps on the items of a list come from its items. -/
theorem mem_of_mapM
    {step : First → Except Fault Second}
    {items : List First}
    {results : List Second}
    (mapped : items.mapM step = .ok results)
    {result : Second} :
    result ∈ results ↔ ∃ item ∈ items, step item = .ok result := by
  induction items generalizing results with
  | nil =>
      cases mapped
      simp
  | cons first rest inductionHypothesis =>
      rw [List.mapM_cons, bind_eq_ok] at mapped
      obtain ⟨firstResult, stepped, mapped⟩ := mapped
      obtain ⟨others, mappedRest, mapped⟩ := bind_eq_ok.mp mapped
      cases mapped
      simp [inductionHypothesis mappedRest, stepped, eq_comm]

/-- Steps on the items of a list give results only if each of them does. -/
theorem ok_of_mapM
    {step : First → Except Fault Second}
    {items : List First}
    {results : List Second}
    (mapped : items.mapM step = .ok results)
    {item : First}
    (member : item ∈ items) :
    ∃ result, step item = .ok result := by
  induction items generalizing results with
  | nil =>
      cases member
  | cons first rest inductionHypothesis =>
      rw [List.mapM_cons, bind_eq_ok] at mapped
      obtain ⟨firstResult, stepped, mapped⟩ := mapped
      obtain ⟨others, mappedRest, _⟩ := bind_eq_ok.mp mapped
      rcases List.mem_cons.mp member with rfl | inRest
      · exact ⟨firstResult, stepped⟩
      · exact inductionHypothesis mappedRest inRest

/-- Steps on the items of a list give results in order if each of them gives one. -/
theorem mapM_ok
    {step : First → Except Fault Second}
    (Related : First → Second → Prop)
    {items : List First}
    (each :
      ∀ item ∈ items, ∃ result, step item = .ok result ∧ Related item result) :
    ∃ results,
      items.mapM step = .ok results ∧
        List.Forall₂ Related items results := by
  induction items with
  | nil =>
      exact ⟨[], rfl, .nil⟩
  | cons first rest inductionHypothesis =>
      obtain ⟨result, stepped, related⟩ := each first List.mem_cons_self
      obtain ⟨others, mapped, relatedOthers⟩ :=
        inductionHypothesis fun item member =>
          each item (List.mem_cons_of_mem _ member)
      refine ⟨result :: others, ?_, .cons related relatedOthers⟩
      rw [List.mapM_cons, bind_eq_ok]
      exact ⟨result, stepped, bind_eq_ok.mpr ⟨others, mapped, rfl⟩⟩

/-- Steps on the items of a list give a list of results item by item. -/
theorem mapM_eq_ok
    {step : First → Except Fault Second}
    {items : List First}
    {results : List Second} :
    items.mapM step = .ok results ↔
      List.Forall₂ (fun item result => step item = .ok result) items
        results := by
  induction items generalizing results with
  | nil =>
      simp [pure, Except.pure, eq_comm]
  | cons first rest inductionHypothesis =>
      rw [List.mapM_cons, bind_eq_ok]
      constructor
      · rintro ⟨result, stepped, mapped⟩
        obtain ⟨others, mappedRest, finished⟩ := bind_eq_ok.mp mapped
        cases finished
        exact .cons stepped (inductionHypothesis.mp mappedRest)
      · intro each
        cases each with
        | cons stepped eachRest =>
            refine ⟨_, stepped, bind_eq_ok.mpr ?_⟩
            exact ⟨_, inductionHypothesis.mpr eachRest, rfl⟩

/-- A step fails, if it does, only with faults that have a property. -/
def FailsOnly
    (Holds : Fault → Prop)
    (result : Except Fault First) : Prop :=
  ∀ fault, result = .error fault → Holds fault

namespace FailsOnly

variable {Holds : Fault → Prop}

theorem any
    (result : Except Fault First) :
    FailsOnly (fun _ => True) result :=
  fun _ _ => trivial

theorem value
    (first : First) :
    FailsOnly Holds (pure first : Except Fault First) := by
  intro fault failed
  cases failed

theorem fault
    {reason : Fault}
    (holds : Holds reason) :
    FailsOnly Holds (throw reason : Except Fault First) := by
  intro fault failed
  cases failed
  exact holds

theorem mono
    {result : Except Fault First}
    (fails : FailsOnly Holds result)
    {Other : Fault → Prop}
    (implies : ∀ {fault}, Holds fault → Other fault) :
    FailsOnly Other result :=
  fun fault failed => implies (fails fault failed)

theorem bind
    {result : Except Fault First}
    {next : First → Except Fault Second}
    (first : FailsOnly Holds result)
    (later : ∀ {value}, result = .ok value → FailsOnly Holds (next value)) :
    FailsOnly Holds (result >>= next) := by
  cases result with
  | error reason =>
      intro fault failed
      cases failed
      exact first _ rfl
  | ok value =>
      exact later rfl

theorem mapM
    {step : First → Except Fault Second}
    {items : List First}
    (each : ∀ item ∈ items, FailsOnly Holds (step item)) :
    FailsOnly Holds (items.mapM step) := by
  induction items with
  | nil =>
      exact value []
  | cons first rest inductionHypothesis =>
      rw [List.mapM_cons]
      refine (each first List.mem_cons_self).bind fun _ => ?_
      refine (inductionHypothesis fun item member =>
        each item (List.mem_cons_of_mem _ member)).bind fun _ => ?_
      exact value _

theorem foldlM
    {step : Second → First → Except Fault Second}
    {items : List First}
    (each : ∀ value, ∀ item ∈ items, FailsOnly Holds (step value item))
    (start : Second) :
    FailsOnly Holds (items.foldlM step start) := by
  induction items generalizing start with
  | nil =>
      exact value start
  | cons first rest inductionHypothesis =>
      rw [List.foldlM_cons]
      refine (each start first List.mem_cons_self).bind fun _ => ?_
      exact inductionHypothesis (fun value item member =>
        each value item (List.mem_cons_of_mem _ member)) _

theorem map
    {result : Except Fault First}
    (fails : FailsOnly Holds result)
    (change : First → Second) :
    FailsOnly Holds (result.map change) := by
  intro fault failed
  cases result with
  | error reason =>
      cases failed
      exact fails _ rfl
  | ok first =>
      cases failed

theorem mapError
    {result : Except Fault First}
    (fails : FailsOnly Holds result)
    {Other : OtherFault → Prop}
    {rename : Fault → OtherFault}
    (renames : ∀ {fault}, Holds fault → Other (rename fault)) :
    FailsOnly Other (result.mapError rename) := by
  intro fault failed
  cases result with
  | error reason =>
      cases failed
      exact renames (fails reason rfl)
  | ok first =>
      cases failed

end FailsOnly

end KeyAudit.Outcome
