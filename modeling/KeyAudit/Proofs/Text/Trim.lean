import KeyAudit.Text.Blank
import Mathlib.Data.List.TakeWhile

namespace KeyAudit.Text

/-!
# Texts without blanks around them

Trimming takes away all of a blank text, and of any other text just the blanks
around it.  So blanks that are put around a text do not show once it is trimmed.
-/

theorem isBlank_iff
    {text : Text} :
    text.isBlank = true ↔ ∀ point ∈ text, point.isBlank = true :=
  List.all_eq_true

theorem trimEnd_eq_nil_iff
    {text : Text} :
    text.trimEnd = [] ↔ text.isBlank = true := by
  simp only [trimEnd, List.reverse_eq_nil_iff, List.dropWhile_eq_nil_iff,
    List.mem_reverse, isBlank_iff]

theorem trimStart_eq_nil_iff
    {text : Text} :
    text.trimStart = [] ↔ text.isBlank = true := by
  rw [trimStart, List.dropWhile_eq_nil_iff, isBlank_iff]

theorem trimStart_of_blank
    {before : Text}
    (isBlank : before.isBlank = true)
    (text : Text) :
    (before ++ text).trimStart = text.trimStart :=
  List.dropWhile_append_of_pos (isBlank_iff.mp isBlank)

theorem trimEnd_of_blank
    (text : Text)
    {after : Text}
    (isBlank : after.isBlank = true) :
    (text ++ after).trimEnd = text.trimEnd := by
  have blankReversed :
      ∀ point ∈ after.reverse, point.isBlank = true := by
    intro point member
    exact isBlank_iff.mp isBlank point (List.mem_reverse.mp member)
  rw [trimEnd, trimEnd, List.reverse_append,
    List.dropWhile_append_of_pos blankReversed]

/-- A text that is not blank keeps what comes after it from being trimmed. -/
theorem trimStart_append
    {text : Text}
    (present : text.isBlank = false)
    (after : Text) :
    (text ++ after).trimStart = text.trimStart ++ after := by
  have startPresent : text.trimStart ≠ [] := by
    rw [ne_eq, trimStart_eq_nil_iff, present]
    exact Bool.false_ne_true
  rw [trimStart, List.dropWhile_append, if_neg]
  · rfl
  · simpa [trimStart] using startPresent

/-- A text that is not blank keeps what comes before it from being trimmed. -/
theorem trimEnd_append
    (before : Text)
    {text : Text}
    (present : text.isBlank = false) :
    (before ++ text).trimEnd = before ++ text.trimEnd := by
  have endPresent : text.trimEnd ≠ [] := by
    rw [ne_eq, trimEnd_eq_nil_iff, present]
    exact Bool.false_ne_true
  rw [trimEnd, List.reverse_append, List.dropWhile_append, if_neg]
  · simp [trimEnd]
  · simpa [trimEnd] using endPresent

/-- Trimming the end of a text takes away blanks only. -/
theorem exists_trimEnd_append
    (text : Text) :
    ∃ blanks : Text,
      text = text.trimEnd ++ blanks ∧ blanks.isBlank = true := by
  refine ⟨(text.reverse.takeWhile CodePoint.isBlank).reverse, ?_, ?_⟩
  · rw [trimEnd, ← List.reverse_append, List.takeWhile_append_dropWhile,
      List.reverse_reverse]
  · rw [isBlank_iff]
    intro point member
    exact List.mem_takeWhile_imp (List.mem_reverse.mp member)

/-- What is left of a text that is not blank begins with a point that is not blank. -/
theorem isBlank_trimStart
    {text : Text} :
    text.trimStart.isBlank = true ↔ text.isBlank = true := by
  constructor
  · intro isBlank
    rw [← trimStart_eq_nil_iff]
    by_contra present
    have notBlank := List.head_dropWhile_not CodePoint.isBlank present
    have blankHead := isBlank_iff.mp isBlank _ (List.head_mem present)
    exact Bool.false_ne_true (notBlank.symm.trans blankHead)
  · intro isBlank
    rw [trimStart_eq_nil_iff.mpr isBlank]
    rfl

theorem trim_eq_nil_iff
    {text : Text} :
    text.trim = [] ↔ text.isBlank = true := by
  rw [trim, trimEnd_eq_nil_iff, isBlank_trimStart]

/-- Blanks around a text are trimmed with the text. -/
theorem trim_padded
    {before after : Text}
    (blankBefore : before.isBlank = true)
    (blankAfter : after.isBlank = true)
    (text : Text) :
    (before ++ (text ++ after)).trim = text.trim := by
  rw [trim, trimStart_of_blank blankBefore]
  by_cases isBlank : text.isBlank = true
  · have allBlank : (text ++ after).isBlank = true := by
      simp only [Text.isBlank, List.all_append, Bool.and_eq_true]
      exact ⟨isBlank, blankAfter⟩
    rw [trim_eq_nil_iff.mpr isBlank]
    exact trim_eq_nil_iff.mpr allBlank
  · rw [trimStart_append (Bool.eq_false_iff.mpr isBlank),
      trimEnd_of_blank _ blankAfter, trim]

/-- Trimming does not see a change of points that keeps blanks apart from others. -/
theorem trim_map
    {change : CodePoint → CodePoint}
    (keeps : ∀ point, (change point).isBlank = point.isBlank)
    (text : Text) :
    trim (text.map change) = text.trim.map change := by
  have same : CodePoint.isBlank ∘ change = CodePoint.isBlank :=
    funext keeps
  simp only [trim, trimStart, trimEnd, List.dropWhile_map, same,
    ← List.map_reverse]

end KeyAudit.Text
