import KeyAudit.Key.Verdict
import KeyAudit.Proofs.Logged
import KeyAudit.Proofs.Text.Order

namespace KeyAudit

/-!
# What a verdict says

A verdict lists the keys in which two sets of keys differ.  Whether it is
reported as good and whether it stops the run are two tests, and both come to
the same: the sets agree as far as they must.
-/

namespace Text

/-- One text is lower than another where they first differ. -/
def Lower : Text → Text → Prop :=
  List.Lex fun first second : CodePoint => first.val < second.val

theorem Before.lower
    {first second : Text}
    (before : Before first second) :
    Lower first second := by
  induction first generalizing second with
  | nil =>
      cases second with
      | nil =>
          exact absurd rfl before.2
      | cons point second =>
          exact .nil
  | cons firstPoint first inductionHypothesis =>
      obtain ⟨below, differs⟩ := before
      cases second with
      | nil =>
          cases below
      | cons secondPoint second =>
          rw [Text.le, lexicographic] at below
          split at below
          · rename_i same
            subst same
            refine .cons (inductionHypothesis ⟨below, ?_⟩)
            rintro rfl
            exact differs rfl
          · rename_i apart
            rw [decide_eq_true_eq] at below
            refine .rel (Nat.lt_of_le_of_ne below ?_)
            intro same
            exact apart (Fin.ext same)

theorem lower_sortedDistinct
    (texts : List Text) :
    (sortedDistinct texts).Pairwise Lower :=
  (before_sortedDistinct texts).imp Before.lower

theorem sorted_sortedDistinct
    (texts : List Text) :
    sorted (sortedDistinct texts) = sortedDistinct texts :=
  List.mergeSort_of_pairwise
    ((before_sortedDistinct texts).imp fun before => before.1)

end Text

/-- Used keys are declared and, if it is strict, declared keys are used or exempt. -/
def KeysAgree
    (declared used exempt : Text → Prop)
    (strict : Bool) : Prop :=
  (∀ key, used key → declared key) ∧
    (strict = true → ∀ key, declared key → used key ∨ exempt key)

namespace Verdict

/-- A verdict lists exactly the keys that are missing and those that are unused. -/
structure Tells
    (declared used exempt : Text → Prop)
    (strict : Bool)
    (verdict : Verdict) : Prop where
  missingInOrder : verdict.missing.Pairwise Text.Lower
  unusedInOrder : verdict.unused.Pairwise Text.Lower
  missing : ∀ key, key ∈ verdict.missing ↔ used key ∧ ¬declared key
  unused :
    ∀ key,
      key ∈ verdict.unused ↔ declared key ∧ ¬used key ∧ ¬exempt key
  strict : verdict.strict = strict

theorem compare_tells
    (declared used exempt : List Text)
    (strict : Bool) :
    (compare declared used exempt strict).Tells
      (· ∈ declared) (· ∈ used) (· ∈ exempt) strict where
  missingInOrder := Text.lower_sortedDistinct _
  unusedInOrder := Text.lower_sortedDistinct _
  missing key := by simp [compare]
  unused key := by simp [compare]
  strict := rfl

variable {verdict : Verdict}
variable {declared used exempt : Text → Prop}
variable {strict : Bool}

theorem Tells.missing_eq_nil_iff
    (tells : verdict.Tells declared used exempt strict) :
    verdict.missing = [] ↔ ∀ key, used key → declared key := by
  rw [List.eq_nil_iff_forall_not_mem]
  refine forall_congr' fun key => ?_
  rw [tells.missing key, not_and, not_not]

theorem Tells.unused_eq_nil_iff
    (tells : verdict.Tells declared used exempt strict) :
    verdict.unused = [] ↔ ∀ key, declared key → used key ∨ exempt key := by
  rw [List.eq_nil_iff_forall_not_mem]
  refine forall_congr' fun key => ?_
  rw [tells.unused key, not_and, not_and, not_not, or_iff_not_imp_left]

theorem ok_iff :
    verdict.ok = true ↔
      verdict.missing = [] ∧
        (verdict.strict = true → verdict.unused = []) := by
  unfold ok
  cases verdict.strict <;> simp

/-- A verdict is good exactly if the sets agree as far as they must. -/
theorem Tells.ok_iff_agree
    (tells : verdict.Tells declared used exempt strict) :
    verdict.ok = true ↔ KeysAgree declared used exempt strict := by
  rw [ok_iff, tells.missing_eq_nil_iff, tells.unused_eq_nil_iff,
    tells.strict, KeysAgree]

theorem require_of_failure
    {failure : Failure}
    (fails : verdict.failure? = some failure) :
    verdict.require.result.1 = .error failure := by
  unfold require
  rw [fails]
  rfl

/-- Unused keys that are no failure are logged, which stops nothing. -/
theorem require_of_none
    (fails : verdict.failure? = none) :
    verdict.require.result.1 = .ok () := by
  unfold require
  rw [fails]
  dsimp only
  split
  · exact (Logged.Gives.value ()).result
  · exact (Logged.Gives.log _ _ _).result

/-- A verdict has a failure exactly if it is not good. -/
theorem failure?_eq_none_iff :
    verdict.failure? = none ↔ verdict.ok = true := by
  rw [ok_iff]
  unfold failure?
  cases verdict.missing <;> simp

/-- A verdict stops nothing exactly if it is good. -/
theorem require_eq_ok_iff :
    verdict.require.result.1 = .ok () ↔ verdict.ok = true := by
  rw [← failure?_eq_none_iff]
  refine ⟨?_, require_of_none⟩
  intro passes
  cases fails : verdict.failure? with
  | none =>
      rfl
  | some failure =>
      rw [require_of_failure fails] at passes
      cases passes

/-- The kind of the failure of a verdict that is not good; missing keys come first. -/
def failureKind (verdict : Verdict) : FailureKind :=
  if verdict.missing = [] then .unusedKeys verdict.unused
  else .missingKeys verdict.missing

/-- The failure of a comparison that is not good lists the keys as the verdict does. -/
theorem compare_fails
    {declared used exempt : List Text}
    (bad : ¬(compare declared used exempt strict).ok = true) :
    ∃ failure,
      (compare declared used exempt strict).failure? = some failure ∧
        failure.kind =
          (compare declared used exempt strict).failureKind := by
  rw [← failure?_eq_none_iff] at bad
  obtain ⟨failure, fails⟩ := Option.ne_none_iff_exists'.mp bad
  refine ⟨failure, fails, ?_⟩
  unfold failure? at fails
  unfold failureKind
  split at fails
  · rename_i isMissing
    cases fails
    rw [if_neg (by simpa using isMissing)]
    exact congrArg FailureKind.missingKeys (Text.sorted_sortedDistinct _)
  · rename_i noneMissing
    split at fails
    · cases fails
      rw [if_pos (by simpa using noneMissing)]
      exact congrArg FailureKind.unusedKeys (Text.sorted_sortedDistinct _)
    · cases fails

end Verdict

end KeyAudit
