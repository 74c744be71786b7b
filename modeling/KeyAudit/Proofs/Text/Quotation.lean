import KeyAudit.Proofs.Text.Trim
import KeyAudit.Text.Quoted
import Mathlib.Data.List.Induction

namespace KeyAudit.Text

/-!
# Text between double quotes

A double quote closes a quoted string unless it is escaped, and a backslash
escapes the point after it unless it is escaped itself.  So a text can stand
between double quotes as it is exactly when each of its double quotes comes after
an odd number of backslashes and its end after an even number.
-/

/-- How many backslashes a text ends with. -/
def trailingBackslashes (text : Text) : Nat :=
  (text.reverse.takeWhile (· = backslash)).length

/-- Whether a point after a text is escaped. -/
def escapesNext (text : Text) : Bool :=
  text.trailingBackslashes % 2 == 1

/-- The text up to the quote that closes it, and what comes after that quote. -/
def closeQuote (isEscaped : Bool) : Text → Option (Text × Text)
  | [] => none
  | point :: rest =>
      if point = doubleQuote ∧ isEscaped = false then
        some ([], rest)
      else
        (closeQuote (point = backslash && !isEscaped) rest).map
          fun (value, after) => (point :: value, after)

/-- The first quoted string of a text, and what comes after it. -/
def firstString (text : Text) : Option (Text × Text) :=
  match text.dropWhile (· ≠ doubleQuote) with
  | [] => none
  | _ :: rest => closeQuote false rest

/-- All special points of a text are escaped, or none of them is. -/
def Stands
    (special : CodePoint → Bool)
    (isEscaped : Bool)
    (text : Text) :
    Prop :=
  ∀ (before : Text) (point : CodePoint) (after : Text),
    text = before ++ point :: after →
      special point = true →
        before.escapesNext = isEscaped

/-- All special points of a text stand in the same way, and its end is not escaped. -/
structure Settled
    (special : CodePoint → Bool)
    (isEscaped : Bool)
    (text : Text) :
    Prop where
  stands : text.Stands special isEscaped
  ends : text.escapesNext = false

/-- The double quote, as a class of points. -/
def isDoubleQuote (point : CodePoint) : Bool :=
  point = doubleQuote

/-- The double quote and the blanks. -/
def isBreak (point : CodePoint) : Bool :=
  isDoubleQuote point || point.isBlank

/--
A text that can stand between double quotes as it is: its double quotes come
after an odd number of backslashes, and its end after an even number.
-/
abbrev Contained (text : Text) : Prop :=
  text.Settled isDoubleQuote true

/--
A text that can stand between double quotes once a backslash is put before each
of its own: these, and its end, come after an even number of backslashes.
-/
abbrev Escapable (text : Text) : Prop :=
  text.Settled isDoubleQuote false

/-- Such a text of which any blanks at the end can be dropped. -/
abbrev Regular (text : Text) : Prop :=
  text.Settled isBreak false

section Backslashes

variable {text before after : Text}

theorem escapesNext_nil : escapesNext [] = false :=
  rfl

/-- A backslash escapes the next point unless it is escaped itself. -/
theorem escapesNext_snoc
    (text : Text)
    (point : CodePoint) :
    (text ++ [point]).escapesNext =
      (point = backslash && !text.escapesNext) := by
  unfold escapesNext trailingBackslashes
  rw [List.reverse_append, List.reverse_singleton, List.singleton_append,
    List.takeWhile_cons]
  by_cases isBackslash : point = backslash
  · simp only [isBackslash, decide_true, if_true, List.length_cons,
      Bool.true_and]
    grind
  · simp [isBackslash]

/-- What is before a text does not matter unless it escapes the first point. -/
theorem escapesNext_append
    (notEscaped : before.escapesNext = false)
    (text : Text) :
    (before ++ text).escapesNext = text.escapesNext := by
  induction text using List.reverseRecOn with
  | nil =>
      rw [List.append_nil, notEscaped, escapesNext_nil]
  | append_singleton text point inductionHypothesis =>
      rw [← List.append_assoc, escapesNext_snoc, escapesNext_snoc,
        inductionHypothesis]

theorem escapesNext_of_no_backslash
    (absent : backslash ∉ text) :
    text.escapesNext = false := by
  induction text using List.reverseRecOn with
  | nil =>
      rfl
  | append_singleton text point inductionHypothesis =>
      have different : point ≠ backslash := by
        rintro rfl
        exact absent (by simp)
      simp [escapesNext_snoc, different]

end Backslashes

section Stands

variable {special : CodePoint → Bool} {isEscaped : Bool}
variable {text before : Text} {point : CodePoint}

theorem stands_nil : Stands special isEscaped [] := by
  intro before point after shape
  simp at shape

/-- A special point of two texts in a row belongs to the first or to the second. -/
theorem stands_append_iff :
    (before ++ text).Stands special isEscaped ↔
      before.Stands special isEscaped ∧
        ∀ (first : Text) (point : CodePoint) (last : Text),
          text = first ++ point :: last →
            special point = true →
              (before ++ first).escapesNext = isEscaped := by
  constructor
  · intro stands
    constructor
    · rintro first point last rfl isSpecial
      exact stands first point (last ++ text) (by simp) isSpecial
    · rintro first point last rfl isSpecial
      exact stands (before ++ first) point last (by simp) isSpecial
  · rintro ⟨standsBefore, standsText⟩ first point last shape isSpecial
    rcases List.append_eq_append_iff.mp shape with
      ⟨middle, rfl, textShape⟩ | ⟨middle, beforeShape, lastShape⟩
    · exact standsText middle point last textShape isSpecial
    · cases middle with
      | nil =>
          have standsFirst := standsText [] point last lastShape.symm isSpecial
          rw [List.append_nil] at beforeShape standsFirst
          rw [← beforeShape]
          exact standsFirst
      | cons next middle =>
          obtain ⟨rfl, rfl⟩ := List.cons.inj lastShape
          exact standsBefore first point middle beforeShape isSpecial

theorem stands_append
    (notEscaped : before.escapesNext = false) :
    (before ++ text).Stands special isEscaped ↔
      before.Stands special isEscaped ∧ text.Stands special isEscaped := by
  simp only [stands_append_iff, escapesNext_append notEscaped]
  rfl

theorem stands_snoc :
    (text ++ [point]).Stands special isEscaped ↔
      text.Stands special isEscaped ∧
        (special point = true → text.escapesNext = isEscaped) := by
  rw [stands_append_iff, and_congr_right_iff]
  intro _
  constructor
  · intro stands isSpecial
    rw [← List.append_nil text]
    exact stands [] point [] rfl isSpecial
  · intro stands first other last shape isSpecial
    obtain ⟨rfl, rfl, rfl⟩ : first = [] ∧ other = point ∧ last = [] := by
      simpa [List.append_eq_singleton_iff] using shape.symm
    rw [List.append_nil]
    exact stands isSpecial

/-- Without special points there is nothing to escape. -/
theorem stands_of_none_special
    (noneSpecial : ∀ point ∈ text, special point = false) :
    text.Stands special isEscaped := by
  rintro first point last rfl isSpecial
  rw [noneSpecial point (by simp)] at isSpecial
  cases isSpecial

end Stands

namespace Settled

variable {special : CodePoint → Bool} {isEscaped : Bool}
variable {text before : Text}

theorem empty : Settled special isEscaped [] :=
  ⟨stands_nil, escapesNext_nil⟩

/-- A settled text before another one leaves it as it is. -/
theorem append_iff
    (settled : before.Settled special isEscaped) :
    (before ++ text).Settled special isEscaped ↔
      text.Settled special isEscaped := by
  constructor
  · rintro ⟨stands, ends⟩
    rw [escapesNext_append settled.ends] at ends
    exact ⟨((stands_append settled.ends).mp stands).2, ends⟩
  · rintro ⟨stands, ends⟩
    rw [← escapesNext_append settled.ends] at ends
    exact ⟨(stands_append settled.ends).mpr ⟨settled.stands, stands⟩, ends⟩

theorem append
    (settledBefore : before.Settled special isEscaped)
    (settled : text.Settled special isEscaped) :
    (before ++ text).Settled special isEscaped :=
  settledBefore.append_iff.mpr settled

theorem flatMap
    {Item : Type}
    {items : List Item}
    {write : Item → Text}
    (settled : ∀ item ∈ items, (write item).Settled special isEscaped) :
    Settled special isEscaped (items.flatMap write) := by
  induction items with
  | nil =>
      exact empty
  | cons item items inductionHypothesis =>
      rw [List.flatMap_cons]
      exact (settled item List.mem_cons_self).append
        (inductionHypothesis fun other member =>
          settled other (List.mem_cons_of_mem item member))

theorem joinWith
    {separator : Text}
    (settledSeparator : separator.Settled special isEscaped)
    {parts : List Text}
    (settled : ∀ part ∈ parts, part.Settled special isEscaped) :
    (Text.joinWith separator parts).Settled special isEscaped := by
  unfold Text.joinWith
  induction parts with
  | nil =>
      exact empty
  | cons part parts inductionHypothesis =>
      have settledPart := settled part List.mem_cons_self
      cases parts with
      | nil =>
          rw [List.intercalate_singleton]
          exact settledPart
      | cons other parts =>
          rw [List.intercalate_cons_cons]
          exact (settledPart.append settledSeparator).append
            (inductionHypothesis fun later member =>
              settled later (List.mem_cons_of_mem part member))

end Settled

/-- A text without backslashes is regular, whatever else it holds. -/
theorem regular_of_no_backslash
    {text : Text}
    (absent : backslash ∉ text) :
    text.Regular := by
  refine ⟨?_, escapesNext_of_no_backslash absent⟩
  rintro first point last rfl _
  refine escapesNext_of_no_backslash fun member => absent ?_
  exact List.mem_append_left (point :: last) member

/-- A text with neither double quotes nor backslashes can stand as it is. -/
theorem contained_of_plain
    {text : Text}
    (noQuote : doubleQuote ∉ text)
    (noBackslash : backslash ∉ text) :
    text.Contained := by
  refine ⟨stands_of_none_special ?_, escapesNext_of_no_backslash noBackslash⟩
  intro point member
  have different : point ≠ doubleQuote := by
    rintro rfl
    exact noQuote member
  simp [isDoubleQuote, different]

namespace Regular

variable {text : Text}

theorem escapable
    (regular : text.Regular) :
    text.Escapable := by
  refine ⟨?_, regular.ends⟩
  intro before point after shape isQuote
  exact regular.stands before point after shape
    (by simp [isBreak, isQuote])

/-- Blanks at the start of a regular text can be dropped. -/
theorem trimStart
    (regular : text.Regular) :
    text.trimStart.Regular := by
  have blanks : backslash ∉ text.takeWhile CodePoint.isBlank := by
    intro member
    have isBlank := List.mem_takeWhile_imp member
    revert isBlank
    decide
  rw [← List.takeWhile_append_dropWhile (p := CodePoint.isBlank) (l := text)]
    at regular
  exact (regular_of_no_backslash blanks).append_iff.mp regular

/-- Blanks at the end of a regular text can be dropped. -/
theorem trimEnd
    (regular : text.Regular) :
    text.trimEnd.Regular := by
  obtain ⟨blanks, shape, allBlank⟩ := exists_trimEnd_append text
  have standsParts := regular.stands
  rw [shape, stands_append_iff] at standsParts
  refine ⟨standsParts.1, ?_⟩
  cases blanks with
  | nil =>
      rw [List.append_nil] at shape
      rw [← shape]
      exact regular.ends
  | cons blank blanks =>
      have isBlank := isBlank_iff.mp allBlank blank List.mem_cons_self
      have ends :=
        standsParts.2 [] blank blanks rfl (by simp [isBreak, isBlank])
      rwa [List.append_nil] at ends

/--
A regular text that is not blank, with a text after it, is trimmed to one that
can be escaped exactly when the text after it is, without blanks at its end.
-/
theorem trim_append
    (regular : text.Regular)
    (present : text.isBlank = false)
    (after : Text) :
    (text ++ after).trim.Escapable ↔ after.trimEnd.Escapable := by
  rw [trim, trimStart_append present]
  by_cases isBlank : after.isBlank = true
  · rw [trimEnd_of_blank _ isBlank, trimEnd_eq_nil_iff.mpr isBlank]
    exact iff_of_true regular.trimStart.trimEnd.escapable Settled.empty
  · rw [trimEnd_append _ (Bool.eq_false_iff.mpr isBlank)]
    exact regular.trimStart.escapable.append_iff

end Regular

section Quoted

theorem hex_no_backslash
    (width number : Nat) :
    backslash ∉ hex width number := by
  induction width generalizing number with
  | zero =>
      exact List.not_mem_nil
  | succ width inductionHypothesis =>
      have digits :
          ∀ value : Fin 16,
            backslash ≠ CodePoint.ofChar (Nat.digitChar value.val) := by
        decide
      rw [hex, List.mem_append, not_or, List.mem_singleton]
      exact ⟨inductionHypothesis (number / 16),
        digits ⟨number % 16, Nat.mod_lt number (by decide)⟩⟩

/-- A backslash with the point that it escapes, unless this is a quote or a blank. -/
theorem regular_pair
    {point : CodePoint}
    (unbroken : isBreak point = false) :
    Regular [backslash, point] := by
  refine ⟨stands_of_none_special ?_, ?_⟩
  · intro other member
    rcases List.mem_cons.mp member with rfl | isLast
    · decide
    · rw [List.mem_singleton.mp isLast]
      exact unbroken
  · have ends := escapesNext_snoc [backslash] point
    have odd : escapesNext [backslash] = true := by decide
    rw [odd, Bool.not_true, Bool.and_false] at ends
    exact ends

theorem regular_numbered
    {letter : CodePoint}
    (unbroken : isBreak letter = false)
    (width number : Nat) :
    Regular (backslash :: letter :: hex width number) :=
  (regular_pair unbroken).append
    (regular_of_no_backslash (hex_no_backslash width number))

/-- No escape leaves a double quote or a blank behind an odd number of backslashes. -/
theorem regular_escaped
    {quote point : CodePoint}
    (isQuote : quote = singleQuote ∨ quote = doubleQuote ∧ point ≠ doubleQuote) :
    (escaped quote point).Regular := by
  unfold escaped
  split_ifs with isEscape isTab isFeed isReturn isPrintable isByte isUnit
  · have plain : point = singleQuote ∨ point = backslash := by
      rcases isEscape with rfl | isBackslash
      · rcases isQuote with isSingle | ⟨isDouble, notDouble⟩
        · exact Or.inl isSingle
        · exact absurd isDouble notDouble
      · exact Or.inr isBackslash
    rcases plain with rfl | rfl
    · exact regular_pair (by decide)
    · exact regular_pair (by decide)
  · exact regular_pair (by decide)
  · exact regular_pair (by decide)
  · exact regular_pair (by decide)
  · refine regular_of_no_backslash ?_
    rw [List.mem_singleton]
    exact fun same => isEscape (Or.inr same.symm)
  · exact regular_numbered (by decide) 2 point.val
  · exact regular_numbered (by decide) 4 point.val
  · exact regular_numbered (by decide) 8 point.val

/-- Whatever a text holds, it is regular once it is quoted. -/
theorem regular_quoted
    (text : Text) :
    text.quoted.Regular := by
  have isQuote
      {point : CodePoint}
      (member : point ∈ text) :
      preferredQuote text = singleQuote ∨
        preferredQuote text = doubleQuote ∧ point ≠ doubleQuote := by
    unfold preferredQuote
    split
    · rename_i prefersDouble
      refine Or.inr ⟨rfl, ?_⟩
      rintro rfl
      simp [member] at prefersDouble
    · exact Or.inl rfl
  have quoteRegular : Regular [preferredQuote text] := by
    refine regular_of_no_backslash ?_
    unfold preferredQuote
    split <;> decide
  have escapes : Regular (text.flatMap (escaped (preferredQuote text))) :=
    Settled.flatMap fun point member => regular_escaped (isQuote member)
  exact (quoteRegular.append escapes).append quoteRegular

end Quoted

section Reading

variable {text value rest : Text}

/-- A string that was read up to some place is closed where the whole of it is contained. -/
theorem closeQuote_after
    {before : Text}
    (stands : before.Stands isDoubleQuote true) :
    closeQuote before.escapesNext text = some (value, rest) ↔
      text = value ++ doubleQuote :: rest ∧
        Contained (before ++ value) := by
  -- The text that was read grows by each point that does not close the string.
  induction text generalizing before value with
  | nil =>
      simp [closeQuote]
  | cons point text inductionHypothesis =>
      by_cases closes : point = doubleQuote ∧ before.escapesNext = false
      · obtain ⟨rfl, notEscaped⟩ := closes
        rw [closeQuote, if_pos ⟨rfl, notEscaped⟩, Option.some_inj, Prod.mk.injEq]
        constructor
        · rintro ⟨rfl, rfl⟩
          rw [List.append_nil]
          exact ⟨rfl, stands, notEscaped⟩
        · rintro ⟨shape, contained⟩
          cases value with
          | nil =>
              exact ⟨rfl, (List.cons.inj shape).2⟩
          | cons first value =>
              obtain ⟨rfl, _⟩ := List.cons.inj shape
              have isEscaped := contained.stands before _ value rfl rfl
              rw [notEscaped] at isEscaped
              cases isEscaped
      · have standsNext : (before ++ [point]).Stands isDoubleQuote true := by
          rw [stands_snoc]
          refine ⟨stands, fun isQuote => ?_⟩
          by_contra notEscaped
          exact closes
            ⟨of_decide_eq_true isQuote, Bool.eq_false_iff.mpr notEscaped⟩
        have later (value : Text) :
            closeQuote (point = backslash && !before.escapesNext) text =
                some (value, rest) ↔
              text = value ++ doubleQuote :: rest ∧
                Contained (before ++ point :: value) := by
          rw [← escapesNext_snoc, inductionHypothesis standsNext,
            List.append_assoc, List.singleton_append]
        rw [closeQuote, if_neg closes, Option.map_eq_some_iff]
        constructor
        · rintro ⟨⟨value, after⟩, read, same⟩
          cases same
          obtain ⟨rfl, contained⟩ := (later value).mp read
          exact ⟨rfl, contained⟩
        · rintro ⟨shape, contained⟩
          cases value with
          | nil =>
              have notEscaped := contained.ends
              rw [List.append_nil] at notEscaped
              exact absurd ⟨(List.cons.inj shape).1, notEscaped⟩ closes
          | cons first value =>
              obtain ⟨rfl, rfl⟩ := List.cons.inj shape
              exact ⟨(value, rest), (later value).mpr ⟨rfl, contained⟩, rfl⟩

/-- A string is closed behind its value, and its value can stand between quotes. -/
theorem closeQuote_eq_some :
    closeQuote false text = some (value, rest) ↔
      text = value ++ doubleQuote :: rest ∧ value.Contained := by
  rw [← escapesNext_nil]
  exact closeQuote_after stands_nil

instance : Decidable text.Contained :=
  decidable_of_iff
    (closeQuote false (text ++ [doubleQuote]) = some (text, []))
    (by simp [closeQuote_eq_some])

/-- The first string of a text with no double quote before it. -/
theorem firstString_eq_some
    {before : Text}
    (absent : doubleQuote ∉ before)
    (label after : Text) :
    firstString (before ++ doubleQuote :: label ++ doubleQuote :: after) =
        some (label, after) ↔
      label.Contained := by
  have passed :
      (before ++ doubleQuote :: label ++ doubleQuote :: after).dropWhile
          (· ≠ doubleQuote) =
        doubleQuote :: (label ++ doubleQuote :: after) := by
    rw [List.append_assoc, List.dropWhile_append_of_pos]
    · simp
    · intro point member
      have different : point ≠ doubleQuote := by
        rintro rfl
        exact absent member
      simpa using different
  rw [firstString, passed, closeQuote_eq_some]
  exact and_iff_right rfl

end Reading

end KeyAudit.Text
