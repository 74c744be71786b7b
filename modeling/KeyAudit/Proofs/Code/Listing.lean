import KeyAudit.Proofs.Code.Decoded
import KeyAudit.Proofs.Text.Quotation

namespace KeyAudit

/-!
# Listing lines between double quotes

A listing line shows the offset, the mnemonic and the operand of an instruction.
Numbers and mnemonics hold no backslash, and texts that are constants are quoted
on their own.  So only the name of a member or of a class, which is shown as it
is, can keep a line from being escaped.
-/

namespace Text

section Numbers

theorem isDigit_of_mem_ofNat
    {number : Nat}
    {point : CodePoint}
    (member : point ∈ ofNat number) :
    point.isDigit = true := by
  obtain ⟨digit, isDigit, rfl⟩ := List.mem_map.mp member
  have range := Nat.isDigit_of_mem_toDigits (by decide) (by decide) isDigit
  simp only [Char.isDigit, Bool.and_eq_true, decide_eq_true_eq, ge_iff_le,
    UInt32.le_iff_toNat_le] at range
  rw [CodePoint.isDigit, Bool.and_eq_true]
  exact ⟨decide_eq_true range.1, decide_eq_true range.2⟩

theorem not_mem_ofNat
    {point : CodePoint}
    (notDigit : point.isDigit = false)
    (number : Nat) :
    point ∉ ofNat number := by
  intro member
  rw [isDigit_of_mem_ofNat member] at notDigit
  cases notDigit

theorem not_mem_ofInt
    {point : CodePoint}
    (notDigit : point.isDigit = false)
    (notMinus : point ≠ CodePoint.ofChar '-')
    (number : Int) :
    point ∉ ofInt number := by
  cases number with
  | ofNat number =>
      exact not_mem_ofNat notDigit number
  | negSucc number =>
      rw [ofInt, List.mem_cons, not_or]
      exact ⟨notMinus, not_mem_ofNat notDigit (number + 1)⟩

theorem regular_ofNat
    (number : Nat) :
    (ofNat number).Regular :=
  regular_of_no_backslash (not_mem_ofNat (by decide) number)

theorem regular_ofInt
    (number : Int) :
    (ofInt number).Regular :=
  regular_of_no_backslash (not_mem_ofInt (by decide) (by decide) number)

end Numbers

end Text

open Text

namespace Double

variable {digits : Text}

theorem not_mem_positional
    (absent : backslash ∉ digits)
    (lead : Int) :
    backslash ∉ positional digits lead := by
  have noZero (count : Nat) :
      backslash ∉ List.replicate count (CodePoint.ofChar '0') :=
    fun member => absurd (List.eq_of_mem_replicate member) (by decide)
  cases lead with
  | negSucc places =>
      rw [positional, List.mem_append, List.mem_append, not_or, not_or]
      exact ⟨⟨by decide, noZero places⟩, absent⟩
  | ofNat places =>
      have padded :
          backslash ∉
            digits ++
              List.replicate (places + 1 - digits.length)
                (CodePoint.ofChar '0') := by
        rw [List.mem_append, not_or]
        exact ⟨absent, noZero _⟩
      simp only [positional, List.mem_append, not_or]
      refine ⟨⟨fun member => padded (List.mem_of_mem_take member),
        by decide⟩, ?_⟩
      split
      · decide
      · exact fun member => padded (List.mem_of_mem_drop member)

theorem not_mem_scientific
    (absent : backslash ∉ digits)
    (lead : Int) :
    backslash ∉ scientific digits lead := by
  have exponent :
      backslash ∉ zeroPadded layout.exponentDigits lead.natAbs := by
    rw [zeroPadded, List.mem_append, not_or]
    exact
      ⟨fun member => absurd (List.eq_of_mem_replicate member) (by decide),
        not_mem_ofNat (by decide) lead.natAbs⟩
  simp only [scientific, List.mem_append, not_or]
  refine ⟨⟨⟨⟨fun member => absent (List.mem_of_mem_take member), ?_⟩,
    by decide⟩, ?_⟩, exponent⟩
  · split
    · exact List.not_mem_nil
    · rw [List.mem_cons, not_or]
      exact ⟨by decide, fun member => absent (List.mem_of_mem_drop member)⟩
  · split <;> decide

theorem regular_toText
    (value : Double) :
    value.toText.Regular := by
  refine regular_of_no_backslash ?_
  cases value with
  | nan =>
      decide
  | infinite negative =>
      cases negative <;> decide
  | finite negative mantissa exponent =>
      have noSign :
          backslash ∉ (if negative then ofString "-" else ofString "") := by
        cases negative <;> decide
      have noDigits (number : Nat) : backslash ∉ ofNat number :=
        not_mem_ofNat (by decide) number
      simp only [toText]
      generalize (if negative then ofString "-" else ofString "") = sign
        at noSign
      split_ifs
      all_goals rw [List.mem_append, not_or]
      · exact ⟨noSign, by decide⟩
      · exact ⟨noSign, not_mem_positional (noDigits _) _⟩
      · exact ⟨noSign, not_mem_scientific (noDigits _) _⟩

end Double

/-- No constant brings a quote or a blank behind an odd number of backslashes. -/
theorem Loadable.regular_label
    (value : Loadable) :
    value.label.Regular := by
  have plain
      {text : String}
      (absent : backslash ∉ ofString text) :
      (ofString text).Regular :=
    regular_of_no_backslash absent
  cases value with
  | string text =>
      exact regular_quoted text
  | integer value =>
      exact regular_ofInt value
  | float value =>
      exact value.regular_toText
  | long value =>
      exact regular_ofInt value
  | double value =>
      exact value.regular_toText
  | classLiteral name =>
      exact regular_quoted name
  | methodType descriptor =>
      exact regular_quoted descriptor
  | methodHandle kind reference =>
      exact ((((plain (by decide)).append (regular_ofNat kind)).append
        (plain (by decide))).append (regular_ofNat reference)).append
          (plain (by decide))
  | dynamic member =>
      exact ((((((plain (by decide)).append (regular_quoted member.owner)).append
        (plain (by decide))).append (regular_quoted member.name)).append
          (plain (by decide))).append
            (regular_quoted member.descriptor)).append (plain (by decide))

namespace Operand

/-- The name of a member or a class, which a listing shows as it is. -/
def name? (operand : Operand) : Option Text :=
  (operand.member?.map Member.label).or operand.classRef?

/-- What a listing shows of an operand before such a name. -/
def shownBefore : Operand → List Text
  | .slot index => [ofNat index]
  | .increment index amount => [ofNat index, ofInt amount]
  | .immediate value => [ofInt value]
  | .constant value => [value.label]
  | .arrayClass _ dimensions => [ofInt dimensions]
  | .jump target => ["-> " ++ joinWith ", " [ofInt target]]
  | .switch default cases =>
      ["-> " ++ joinWith ", " ((default :: cases.map Prod.snd).map ofInt)]
  | _ => []

theorem regular_shownBefore
    (operand : Operand) :
    ∀ part ∈ operand.shownBefore, part.Regular := by
  have arrows
      (targets : List Int) :
      Regular ("-> " ++ joinWith ", " (targets.map ofInt)) := by
    refine Settled.append (regular_of_no_backslash (by decide))
      (Settled.joinWith (regular_of_no_backslash (by decide)) ?_)
    intro part member
    obtain ⟨target, _, rfl⟩ := List.mem_map.mp member
    exact regular_ofInt target
  cases operand with
  | none | member value | classRef name =>
      intro part member
      cases member
  | slot index =>
      simpa [shownBefore] using regular_ofNat index
  | increment index amount =>
      simpa [shownBefore] using
        And.intro (regular_ofNat index) (regular_ofInt amount)
  | immediate value =>
      simpa [shownBefore] using regular_ofInt value
  | constant value =>
      simpa [shownBefore] using value.regular_label
  | arrayClass name dimensions =>
      simpa [shownBefore] using regular_ofInt dimensions
  | jump target =>
      simpa [shownBefore] using arrows [target]
  | switch default cases =>
      simpa [shownBefore] using arrows (default :: cases.map Prod.snd)

end Operand

namespace Instruction

/-- What the listing line of an instruction starts with. -/
def heading (instruction : Instruction) : Text :=
  padLeft 5 (ofNat instruction.offset) ++ ": " ++ instruction.opcode.mnemonic

/-- What a listing line shows before the name of a member or a class. -/
def lineBefore (instruction : Instruction) : Text :=
  joinWith " " (instruction.heading :: instruction.operand.shownBefore)

theorem label_eq
    (instruction : Instruction) :
    instruction.label =
      match instruction.operand.name? with
      | none => instruction.lineBefore
      | some name => instruction.lineBefore ++ " " ++ name := by
  obtain ⟨index, offset, length, opcode, operand, wide⟩ := instruction
  cases operand <;>
    simp [label, lineBefore, heading, Operand.name?, Operand.shownBefore,
      Operand.slot?, Operand.amount?, Operand.immediate?, Operand.constant?,
      Operand.member?, Operand.classRef?, Operand.targets, joinWith]

/-- No mnemonic holds a backslash. -/
theorem mnemonics_plain :
    (Opcode.table.all fun row =>
      !(row.mnemonic : Text).contains backslash) = true := by
  decide +kernel

theorem regular_heading
    {instruction : Instruction}
    (fits : instruction.Fits) :
    instruction.heading.Regular := by
  have plain := List.all_eq_true.mp mnemonics_plain _ fits.row
  refine regular_of_no_backslash ?_
  rw [heading, padLeft]
  simp only [List.mem_append, not_or]
  refine ⟨⟨⟨?_, not_mem_ofNat (by decide) _⟩, by decide⟩, by simpa using plain⟩
  exact fun member => absurd (List.eq_of_mem_replicate member) (by decide)

theorem regular_lineBefore
    {instruction : Instruction}
    (fits : instruction.Fits) :
    instruction.lineBefore.Regular := by
  refine Settled.joinWith (regular_of_no_backslash (by decide)) ?_
  intro part member
  rcases List.mem_cons.mp member with rfl | inOperand
  · exact regular_heading fits
  · exact instruction.operand.regular_shownBefore part inOperand

theorem lineBefore_present
    (instruction : Instruction) :
    instruction.lineBefore.isBlank = false := by
  have colon : CodePoint.ofChar ':' ∈ instruction.lineBefore := by
    rw [lineBefore, heading, joinWith]
    cases instruction.operand.shownBefore with
    | nil =>
        rw [List.intercalate_singleton]
        simp [ofString]
    | cons part parts =>
        rw [List.intercalate_cons_cons]
        simp [ofString]
  rw [Bool.eq_false_iff, ne_eq, isBlank_iff]
  intro allBlank
  exact absurd (allBlank _ colon) (by decide)

/-- A listing line can be escaped when the name that it shows can. -/
theorem escapable_label
    {instruction : Instruction}
    (fits : instruction.Fits) :
    instruction.label.trim.Escapable ↔
      ∀ name ∈ instruction.operand.name?, name.trimEnd.Escapable := by
  have regular := regular_lineBefore fits
  have present := instruction.lineBefore_present
  rw [label_eq]
  cases instruction.operand.name? with
  | none =>
      have alone := regular.trim_append present []
      rw [List.append_nil] at alone
      simpa using alone.mpr Settled.empty
  | some name =>
      have spaced : Regular (instruction.lineBefore ++ " ") :=
        regular.append (regular_of_no_backslash (by decide))
      have spacedPresent :
          isBlank (instruction.lineBefore ++ " ") = false := by
        rw [isBlank, List.all_append, ← isBlank, present, Bool.false_and]
      simpa using spaced.trim_append spacedPresent name

end Instruction

end KeyAudit
