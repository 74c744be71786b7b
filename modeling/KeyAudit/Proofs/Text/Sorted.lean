import KeyAudit.Text.Basic

namespace KeyAudit

/-!
# Sorted texts

Sorting texts and keeping each of them once neither loses a text nor adds one.
-/

namespace Text

theorem mem_eraseReps_loop
    {text first : Text}
    {rest kept : List Text} :
    text ∈ List.eraseRepsBy.loop (· == ·) first rest kept ↔
      text = first ∨ text ∈ rest ∨ text ∈ kept := by
  induction rest generalizing first kept with
  | nil =>
      simp [List.eraseRepsBy.loop, or_comm]
  | cons next rest inductionHypothesis =>
      unfold List.eraseRepsBy.loop
      split
      · rename_i same
        have same : first = next := by simpa using same
        rw [inductionHypothesis, List.mem_cons, ← same]
        grind
      · rw [inductionHypothesis, List.mem_cons, List.mem_cons]
        grind

theorem mem_eraseReps
    {text : Text}
    {texts : List Text} :
    text ∈ texts.eraseReps ↔ text ∈ texts := by
  cases texts with
  | nil =>
      rfl
  | cons first rest =>
      unfold List.eraseReps List.eraseRepsBy
      rw [mem_eraseReps_loop]
      simp

@[simp] theorem mem_sortedDistinct
    {text : Text}
    {texts : List Text} :
    text ∈ sortedDistinct texts ↔ text ∈ texts := by
  unfold sortedDistinct sorted
  rw [mem_eraseReps, List.mem_mergeSort]

end Text

end KeyAudit
