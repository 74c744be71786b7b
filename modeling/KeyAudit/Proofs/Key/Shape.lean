import KeyAudit.Key.Shape
import KeyAudit.Proofs.Text.Trim
import Mathlib.Data.List.TakeWhile

namespace KeyAudit

/-!
# Keys as literals of their own

The key of a literal has the shape of a key and begins with the prefix.  No
blank is a point of keys, so there is nothing to trim from a key, and a key that
is read as a literal again stands for itself.
-/

namespace CodePoint

/-- First and last code point of each run of blanks, ascending. -/
def blankRanges : List (Nat × Nat) := [
    (0x09, 0x0D), (0x1C, 0x20), (0x85, 0x85), (0xA0, 0xA0), (0x1680, 0x1680),
    (0x2000, 0x200A), (0x2028, 0x2029), (0x202F, 0x202F), (0x205F, 0x205F),
    (0x3000, 0x3000)]

theorem isBlank_iff
    {point : CodePoint} :
    point.isBlank = true ↔
      ∃ range ∈ blankRanges, range.1 ≤ point.val ∧ point.val ≤ range.2 := by
  simp only [isBlank, blankRanges, Bool.or_eq_true, Bool.and_eq_true,
    decide_eq_true_eq, beq_iff_eq, List.mem_cons, List.not_mem_nil, or_false,
    exists_eq_or_imp, exists_eq_left]
  omega

theorem isLetterOrDigit_iff
    {point : CodePoint} :
    point.isLetterOrDigit = true ↔
      ∃ range ∈ letterOrDigitRanges,
        range.1 ≤ point.val ∧ point.val ≤ range.2 := by
  simp only [isLetterOrDigit, List.any_eq_true, Bool.and_eq_true,
    decide_eq_true_eq]

/-- Each run of letters and digits ends before or begins after each run of blanks. -/
theorem ranges_apart :
    ∀ range ∈ letterOrDigitRanges, ∀ blanks ∈ blankRanges,
      range.2 < blanks.1 ∨ blanks.2 < range.1 := by
  decide +kernel

theorem not_isBlank_of_isLetterOrDigit
    {point : CodePoint}
    (isKept : point.isLetterOrDigit = true) :
    point.isBlank = false := by
  rw [Bool.eq_false_iff]
  intro isBlank
  obtain ⟨range, inRanges, above, below⟩ := isLetterOrDigit_iff.mp isKept
  obtain ⟨blanks, inBlanks, aboveBlanks, belowBlanks⟩ := isBlank_iff.mp isBlank
  have apart := ranges_apart range inRanges blanks inBlanks
  omega

theorem not_isBlank_of_isKeyPoint
    {point : CodePoint}
    (isKept : point.isKeyPoint = true) :
    point.isBlank = false := by
  simp only [isKeyPoint, Bool.or_eq_true, decide_eq_true_eq] at isKept
  rcases isKept with ((rfl | rfl) | rfl) | isKept
  · rfl
  · rfl
  · rfl
  · exact not_isBlank_of_isLetterOrDigit isKept

theorem slash_not_isKeyPoint :
    (ofChar '/').isKeyPoint = false := by
  decide +kernel

end CodePoint

/-- There is nothing to trim from a text without blanks. -/
theorem Text.trim_of_no_blank
    {text : Text}
    (noBlank : ∀ point ∈ text, point.isBlank = false) :
    text.trim = text := by
  have unchanged
      {points : Text}
      (noBlank : ∀ point ∈ points, point.isBlank = false) :
      points.dropWhile CodePoint.isBlank = points := by
    refine List.dropWhile_eq_self_iff.mpr fun present => ?_
    exact Bool.eq_false_iff.mp (noBlank _ (List.getElem_mem present))
  have noBlankReversed :
      ∀ point ∈ text.reverse, point.isBlank = false := by
    intro point member
    exact noBlank point (List.mem_reverse.mp member)
  rw [trim, trimStart, unchanged noBlank, trimEnd, unchanged noBlankReversed,
    List.reverse_reverse]

namespace Key

variable {qualifier literal text key : Text}

/-- A text of points that keys may hold. -/
def IsOfKeyPoints (text : Text) : Prop :=
  ∀ point ∈ text, point.isKeyPoint = true

/--
The keys under a prefix: they begin with it, or, if there is none, have a dot or
are the key of the prefix.
-/
structure IsUnder (qualifier key : Text) : Prop where
  present : key ≠ []
  points : IsOfKeyPoints key
  qualified : qualifier ≠ [] → qualifier <+: key
  dotted :
    qualifier = [] → CodePoint.ofChar '.' ∈ key ∨ key = ofPrefix

theorem isQualified_iff :
    isQualified qualifier text = true ↔
      qualifier ≠ [] ∧ qualifier <+: text := by
  simp [isQualified, Text.startsWith]

/-- Points of keys are neither blanks nor slashes, so only the form is left to look at. -/
theorem hasShape_iff :
    hasShape qualifier text = true ↔
      text ≠ [] ∧ IsOfKeyPoints text ∧
        (isQualified qualifier text = true ∨ text = ofPrefix ∨
          CodePoint.ofChar '.' ∈ text) := by
  have isBlank_iff
      (points : IsOfKeyPoints text) :
      text.isBlank = true ↔ text = [] := by
    rw [← Text.trim_eq_nil_iff, Text.trim_of_no_blank]
    exact fun point member =>
      CodePoint.not_isBlank_of_isKeyPoint (points point member)
  have noSlash
      (points : IsOfKeyPoints text) :
      CodePoint.ofChar '/' ∉ text := by
    intro member
    have slash := points _ member
    rw [CodePoint.slash_not_isKeyPoint] at slash
    cases slash
  unfold hasShape
  simp only [Bool.and_eq_true, Bool.or_eq_true, Bool.not_eq_true',
    List.all_eq_true, beq_iff_eq, List.contains_iff_mem, or_assoc]
  constructor
  · rintro ⟨⟨⟨notBlank, _⟩, points⟩, form⟩
    refine ⟨?_, points, form⟩
    rintro rfl
    cases notBlank
  · rintro ⟨present, points, form⟩
    refine ⟨⟨⟨?_, ?_⟩, points⟩, form⟩
    · rw [Bool.eq_false_iff]
      exact mt (isBlank_iff points).mp present
    · simpa using noSlash points

theorem begins_qualify
    (qualifier text : Text) :
    qualifier <+: qualify qualifier text := by
  unfold qualify
  split
  · rename_i qualified
    exact (isQualified_iff.mp qualified).2
  · exact List.prefix_append qualifier text

theorem qualify_of_begins
    (begins : qualifier <+: text) :
    qualify qualifier text = text := by
  unfold qualify
  split
  · rfl
  · rename_i notQualified
    have noQualifier : qualifier = [] := by
      by_contra present
      exact notQualified (isQualified_iff.mpr ⟨present, begins⟩)
    rw [noQualifier, List.nil_append]

theorem ofLiteral?_eq_some :
    ofLiteral? qualifier literal = some key ↔
      hasShape qualifier literal.trim = true ∧
        qualify qualifier literal.trim = key := by
  simp [ofLiteral?]

/-- What a literal stands for is a key under the prefix. -/
theorem isUnder_of_ofLiteral?
    (points : IsOfKeyPoints qualifier)
    (stands : ofLiteral? qualifier literal = some key) :
    IsUnder qualifier key := by
  obtain ⟨shaped, rfl⟩ := ofLiteral?_eq_some.mp stands
  obtain ⟨present, trimmedPoints, form⟩ := hasShape_iff.mp shaped
  have starts := begins_qualify qualifier literal.trim
  refine ⟨?_, ?_, fun _ => starts, ?_⟩
  · unfold qualify
    split
    · exact present
    · exact List.append_ne_nil_of_right_ne_nil qualifier present
  · unfold qualify
    split
    · exact trimmedPoints
    · intro point member
      rcases List.mem_append.mp member with inQualifier | inTrimmed
      · exact points point inQualifier
      · exact trimmedPoints point inTrimmed
  · rintro rfl
    -- without a prefix nothing is put in front, and only the form can have been right
    rw [qualify_of_begins List.nil_prefix]
    rcases form with qualified | isPrefixKey | dotted
    · exact ((isQualified_iff.mp qualified).1 rfl).elim
    · exact Or.inr isPrefixKey
    · exact Or.inl dotted

/-- A key under the prefix stands for itself. -/
theorem IsUnder.ofLiteral?_eq
    (isUnder : IsUnder qualifier key) :
    ofLiteral? qualifier key = some key := by
  have unchanged : key.trim = key :=
    Text.trim_of_no_blank fun point member =>
      CodePoint.not_isBlank_of_isKeyPoint (isUnder.points point member)
  have starts : qualifier <+: key := by
    by_cases noQualifier : qualifier = []
    · rw [noQualifier]
      exact List.nil_prefix
    · exact isUnder.qualified noQualifier
  rw [ofLiteral?_eq_some, unchanged, hasShape_iff]
  refine ⟨⟨isUnder.present, isUnder.points, ?_⟩, qualify_of_begins starts⟩
  by_cases noQualifier : qualifier = []
  · exact Or.inr (isUnder.dotted noQualifier).symm
  · exact Or.inl (isQualified_iff.mpr ⟨noQualifier, starts⟩)

/--
The key of a literal begins with the prefix.  If the prefix has only points of
keys, the keys of literals are the literals that are their own keys, and these
are all texts with the shape of keys under the prefix.
-/
theorem ofLiteral?_retracts
    (qualifier : Text) :
    (∀ literal key,
      ofLiteral? qualifier literal = some key → qualifier <+: key) ∧
      (IsOfKeyPoints qualifier →
        (∀ key,
          ((∃ literal, ofLiteral? qualifier literal = some key) ↔
              ofLiteral? qualifier key = some key) ∧
            (ofLiteral? qualifier key = some key ↔
              IsUnder qualifier key)) ∧
          ∀ literal key,
            ofLiteral? qualifier literal = some key →
            ofLiteral? qualifier key = some key) := by
  have again
      (points : IsOfKeyPoints qualifier)
      {literal key : Text}
      (stands : ofLiteral? qualifier literal = some key) :
      ofLiteral? qualifier key = some key :=
    (isUnder_of_ofLiteral? points stands).ofLiteral?_eq
  constructor
  · intro literal key stands
    obtain ⟨_, rfl⟩ := ofLiteral?_eq_some.mp stands
    exact begins_qualify qualifier literal.trim
  · intro points
    refine ⟨fun key => ⟨⟨?_, ?_⟩, ⟨?_, ?_⟩⟩, fun literal key => again points⟩
    · rintro ⟨literal, stands⟩
      exact again points stands
    · exact fun stands => ⟨key, stands⟩
    · exact isUnder_of_ofLiteral? points
    · exact IsUnder.ofLiteral?_eq

/-- A literal that has a dot only behind the prefix, and one that is the prefix. -/
theorem ofLiteral?_retracts_demo :
    IsOfKeyPoints "démo." ∧
      ofLiteral? "démo." "\tprefix " = some (Text.ofString "démo.prefix") ∧
      ofLiteral? "démo." "démo.prefix" = some (Text.ofString "démo.prefix") ∧
      ofLiteral? "démo." "démo." = some (Text.ofString "démo.") ∧
      IsUnder "démo." "démo." := by
  have points : IsOfKeyPoints "démo." :=
    List.all_eq_true.mp (by decide +kernel)
  obtain ⟨_, retracts⟩ := ofLiteral?_retracts "démo."
  obtain ⟨ownKeys, again⟩ := retracts points
  have prefixed :
      ofLiteral? "démo." "\tprefix " = some (Text.ofString "démo.prefix") := by
    decide +kernel
  have alone :
      ofLiteral? "démo." "démo." = some (Text.ofString "démo.") := by
    decide +kernel
  exact ⟨points, prefixed, again _ _ prefixed, alone, (ownKeys _).2.mp alone⟩

end Key

end KeyAudit
