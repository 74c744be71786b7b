import KeyAudit.Proofs.Class.Cursor
import KeyAudit.Proofs.Code.Decoded

namespace KeyAudit

/-!
# The bytes that decoding reads

A step that reads takes bytes from the front of what is left and moves on by as
many.  Padding may move past the end, but a number has to follow it, and no
number can be read there.  The cases of a switch are read only when all of their
bytes are there.
-/

namespace Cursor

/-- A cursor is another one after some bytes were read. -/
def Onward (cursor next : Cursor) : Prop :=
  ∃ taken : Bytes,
    cursor.rest = taken ++ next.rest ∧
      next.offset = cursor.offset + taken.length

namespace Onward

variable {cursor middle next : Cursor}

theorem refl (cursor : Cursor) : cursor.Onward cursor :=
  ⟨[], rfl, rfl⟩

theorem trans
    (earlier : cursor.Onward middle)
    (later : middle.Onward next) :
    cursor.Onward next := by
  obtain ⟨first, firstRest, firstOffset⟩ := earlier
  obtain ⟨second, secondRest, secondOffset⟩ := later
  refine ⟨first ++ second, ?_, ?_⟩
  · rw [firstRest, secondRest, List.append_assoc]
  · rw [secondOffset, firstOffset, List.length_append, Nat.add_assoc]

/-- The place where the bytes end does not change. -/
theorem total
    (onward : cursor.Onward next) :
    next.offset + next.rest.length = cursor.offset + cursor.rest.length := by
  obtain ⟨taken, rest, offset⟩ := onward
  rw [rest, offset, List.length_append, Nat.add_assoc]

end Onward

end Cursor

namespace Decoding

open Cursor

variable {First Second : Type}

/-- A step that gives a value has read bytes from the front of what was left. -/
def Consumes (decoding : Decoding First) : Prop :=
  ∀ cursor value next,
    decoding cursor = .ok (value, next) →
    cursor.Onward next

/-- A step that reads so many bytes, and gives a value whenever they are there. -/
structure Sized (width : Nat) (decoding : Decoding First) : Prop where
  consumes : Consumes decoding
  offset_eq :
    ∀ {cursor value next},
      decoding cursor = .ok (value, next) →
      next.offset = cursor.offset + width
  reads :
    ∀ {cursor},
      width ≤ cursor.rest.length →
      ∃ value next, decoding cursor = .ok (value, next)

namespace Sized

theorem value
    (first : First) :
    Sized 0 (pure first : Decoding First) where
  consumes := by
    intro cursor value next read
    cases read
    exact .refl cursor
  offset_eq := by
    intro cursor value next read
    cases read
    rfl
  reads _ := ⟨_, _, rfl⟩

theorem bind
    {width laterWidth : Nat}
    {decoding : Decoding First}
    {next : First → Decoding Second}
    (first : Sized width decoding)
    (later : ∀ value, Sized laterWidth (next value)) :
    Sized (width + laterWidth) (decoding >>= next) where
  consumes := by
    intro cursor value final read
    obtain ⟨_, middle, readFirst, readLater⟩ := bind_eq_ok.mp read
    exact (first.consumes _ _ _ readFirst).trans
      ((later _).consumes _ _ _ readLater)
  offset_eq := by
    intro cursor value final read
    obtain ⟨_, middle, readFirst, readLater⟩ := bind_eq_ok.mp read
    rw [(later _).offset_eq readLater, first.offset_eq readFirst, Nat.add_assoc]
  reads := by
    intro cursor enough
    obtain ⟨value, middle, readFirst⟩ :=
      first.reads (Nat.le_trans (Nat.le_add_right ..) enough)
    have left : laterWidth ≤ middle.rest.length := by
      have total := (first.consumes _ _ _ readFirst).total
      rw [first.offset_eq readFirst] at total
      omega
    obtain ⟨result, final, readLater⟩ := (later value).reads left
    exact ⟨result, final, bind_eq_ok.mpr ⟨value, middle, readFirst, readLater⟩⟩

theorem number (width : Nat) :
    Sized width (Decoding.number width) := by
  have taken
      {cursor next : Cursor}
      {value : Nat}
      (read : Decoding.number width cursor = .ok (value, next)) :
      ∃ bytes,
        bytes.length = width ∧
          cursor.rest = bytes ++ next.rest ∧
            next.offset = cursor.offset + width := by
    unfold Decoding.number at read
    split at read
    · cases read
    · rename_i bytes rest isSplit
      cases read
      obtain ⟨shape, length⟩ := Bytes.split?_eq_some.mp isSplit
      exact ⟨bytes, length, shape, rfl⟩
  refine { consumes := ?_, offset_eq := ?_, reads := ?_ }
  · intro cursor value next read
    obtain ⟨bytes, length, rest, offset⟩ := taken read
    exact ⟨bytes, rest, by rw [offset, length]⟩
  · intro cursor value next read
    obtain ⟨_, _, _, offset⟩ := taken read
    exact offset
  · intro cursor enough
    have isSplit :
        cursor.rest.split? width =
          some (cursor.rest.take width, cursor.rest.drop width) :=
      Bytes.split?_eq_some.mpr
        ⟨(List.take_append_drop width cursor.rest).symm,
          List.length_take_of_le enough⟩
    exact
      ⟨Bytes.toNat (cursor.rest.take width),
        ⟨cursor.rest.drop width, cursor.offset + width⟩,
        by simp only [Decoding.number, isSplit]⟩

theorem signedNumber (width : Nat) :
    Sized width (Decoding.signedNumber width) :=
  (number width).bind fun _ => value _

/-- A repeated step reads as many times as many bytes. -/
theorem times
    {width : Nat}
    {decoding : Decoding First}
    (sized : Sized width decoding)
    (count : Nat) :
    Sized (width * count) (Decoding.times count decoding) := by
  induction count with
  | zero =>
      exact value _
  | succ count inductionHypothesis =>
      have repeated :=
        sized.bind fun first =>
          inductionHypothesis.bind fun others => value (first :: others)
      rwa [Nat.add_zero, Nat.add_comm, ← Nat.mul_succ] at repeated

end Sized

theorem length_of_times
    {decoding : Decoding First}
    {count : Nat}
    {cursor next : Cursor}
    {values : List First}
    (read : times count decoding cursor = .ok (values, next)) :
    values.length = count := by
  induction count generalizing cursor next values with
  | zero =>
      cases read
      rfl
  | succ count inductionHypothesis =>
      unfold times at read
      obtain ⟨first, _, _, read⟩ := bind_eq_ok.mp read
      obtain ⟨others, _, readOthers, read⟩ := bind_eq_ok.mp read
      cases read
      rw [List.length_cons, inductionHypothesis readOthers]

namespace Consumes

variable {decoding : Decoding First}

theorem bind
    {next : First → Decoding Second}
    (first : Consumes decoding)
    (later : ∀ value, Consumes (next value)) :
    Consumes (decoding >>= next) := by
  intro cursor value final read
  obtain ⟨_, middle, readFirst, readLater⟩ := bind_eq_ok.mp read
  exact (first _ _ _ readFirst).trans (later _ _ _ _ readLater)

theorem refuse
    (cause : DecodeCause)
    (offset : Nat) :
    Consumes (Decoding.refuse cause offset : Decoding First) := by
  intro cursor value next read
  cases read

theorem choice
    {condition : Prop}
    [Decidable condition]
    {other : Decoding First}
    (first : Consumes decoding)
    (second : Consumes other) :
    Consumes (if condition then decoding else other) := by
  split
  · exact first
  · exact second

theorem resolve
    (result : Except ClassFault First) :
    Consumes (Decoding.resolve result) := by
  intro cursor value next read
  unfold Decoding.resolve at read
  split at read
  · cases read
  · cases read
    exact .refl cursor

theorem place : Consumes (get : Decoding Cursor) := by
  intro cursor value next read
  cases read
  exact .refl cursor

/-- A step that reads something after padding shows that the padding was there. -/
theorem aligned
    {width : Nat}
    (positive : 0 < width)
    (sized : Sized width decoding) :
    Consumes (align >>= fun _ => decoding) := by
  intro cursor value next read
  obtain ⟨_, middle, readPadding, readLater⟩ := bind_eq_ok.mp read
  have later := sized.consumes _ _ _ readLater
  refine Onward.trans ?_ later
  have moved := sized.offset_eq readLater
  cases readPadding
  have someLeft : 0 < (cursor.rest.drop ((4 - cursor.offset % 4) % 4)).length := by
    have total := later.total
    simp only at total moved ⊢
    omega
  rw [List.length_drop] at someLeft
  refine ⟨cursor.rest.take ((4 - cursor.offset % 4) % 4), ?_, ?_⟩
  · exact (List.take_append_drop _ _).symm
  · simp only
    rw [List.length_take_of_le (by omega)]

end Consumes

end Decoding

namespace Code

open Decoding

/-- The default target of a switch over a range of keys, and the bounds of the range. -/
def tableHeader : Decoding (Int × Int × Int) := do
  align
  let default ← signedNumber 4
  let low ← signedNumber 4
  let high ← signedNumber 4
  return (default, low, high)

/-- The default target of a switch over listed keys, and their number. -/
def lookupHeader : Decoding (Int × Int) := do
  align
  let default ← signedNumber 4
  let count ← signedNumber 4
  return (default, count)

/-- A key of a switch with its target. -/
def lookupCase (offset : Nat) : Decoding (Int × Int) := do
  let key ← signedNumber 4
  let target ← signedNumber 4
  return (key, (offset : Int) + target)

/-- Read so many cases of a switch, each of so many bytes, unless they cannot all be there. -/
def switchCases
    {Case : Type}
    (tooLong : DecodeCause)
    (offset width count : Nat)
    (case : Decoding Case)
    (operand : List Case → Operand) :
    Decoding Operand := do
  if (← remaining) < width * count then
    refuse tooLong offset
  let cases ← times count case
  return operand cases

/-- Read the cases of a switch over a range of keys. -/
def tableCases (offset : Nat) (default low high : Int) : Decoding Operand :=
  if high < low then
    refuse .reversedRange offset
  else
    switchCases .tableTooLong offset 4 (high - low + 1).toNat (signedNumber 4)
      fun targets =>
        .switch (offset + default)
          ((consecutive (high - low + 1).toNat low).zip
            (targets.map fun target => offset + target))

/-- Read the cases of a switch over listed keys. -/
def lookupCases (offset : Nat) (default count : Int) : Decoding Operand :=
  if count < 0 then
    refuse .negativeCount offset
  else
    switchCases .pairsTooLong offset 8 count.toNat (lookupCase offset)
      (.switch (offset + default))

theorem tableSwitch_eq (offset : Nat) :
    tableSwitch offset =
      tableHeader >>= fun header =>
        tableCases offset header.1 header.2.1 header.2.2 := by
  simp only [tableHeader, bind_assoc, pure_bind]
  rfl

theorem lookupSwitch_eq (offset : Nat) :
    lookupSwitch offset =
      lookupHeader >>= fun header =>
        lookupCases offset header.1 header.2 := by
  simp only [lookupHeader, bind_assoc, pure_bind]
  rfl

theorem tableHeader_consumes : Consumes tableHeader :=
  Consumes.aligned (by decide)
    ((Sized.signedNumber 4).bind fun _ =>
      (Sized.signedNumber 4).bind fun _ =>
        (Sized.signedNumber 4).bind fun _ => Sized.value _)

theorem lookupHeader_consumes : Consumes lookupHeader :=
  Consumes.aligned (by decide)
    ((Sized.signedNumber 4).bind fun _ =>
      (Sized.signedNumber 4).bind fun _ => Sized.value _)

theorem lookupCase_sized (offset : Nat) : Sized 8 (lookupCase offset) :=
  (Sized.signedNumber 4).bind fun _ =>
    (Sized.signedNumber 4).bind fun _ => Sized.value _

section Cases

variable {Case : Type}
variable {tooLong : DecodeCause}
variable {offset width count : Nat}
variable {case : Decoding Case}
variable {operand : List Case → Operand}
variable {cursor next : Cursor}

/-- The cases of a switch are read whenever all their bytes are there. -/
theorem switchCases_ok
    (sized : Sized width case)
    (enough : width * count ≤ cursor.rest.length) :
    ∃ result next,
      switchCases tooLong offset width count case operand cursor =
        .ok (result, next) := by
  obtain ⟨cases, next, read⟩ := (sized.times count).reads enough
  refine ⟨operand cases, next, ?_⟩
  refine bind_eq_ok.mpr ⟨cursor.rest.length, cursor, rfl, ?_⟩
  rw [if_neg (Nat.not_lt.mpr enough)]
  exact bind_eq_ok.mpr ⟨cases, next, read, rfl⟩

/-- What the cases of a switch are when they were read between two places. -/
theorem switchCases_eq_ok
    (sized : Sized width case)
    {result : Operand}
    (read :
      switchCases tooLong offset width count case operand cursor =
        .ok (result, next)) :
    cursor.Onward next ∧
      next.offset = cursor.offset + width * count ∧
        ∃ cases, cases.length = count ∧ result = operand cases := by
  obtain ⟨left, _, counted, read⟩ := bind_eq_ok.mp read
  cases counted
  split at read
  · cases read
  · obtain ⟨cases, final, readCases, read⟩ := bind_eq_ok.mp read
    cases read
    exact
      ⟨(sized.times count).consumes _ _ _ readCases,
        (sized.times count).offset_eq readCases,
        cases, length_of_times readCases, rfl⟩

end Cases

/-- A switch over a range of keys is read once it is known that its cases are there. -/
theorem tableSwitch_ok
    {offset : Nat}
    {cursor middle : Cursor}
    {default low high : Int}
    (readHeader : tableHeader cursor = .ok ((default, low, high), middle))
    (ordered : low ≤ high)
    (enough : 4 * (high - low + 1).toNat ≤ middle.rest.length) :
    ∃ operand next, tableSwitch offset cursor = .ok (operand, next) := by
  obtain ⟨operand, next, readCases⟩ :=
    switchCases_ok (Sized.signedNumber 4) enough
  refine ⟨operand, next, ?_⟩
  rw [tableSwitch_eq]
  refine bind_eq_ok.mpr ⟨_, middle, readHeader, ?_⟩
  unfold tableCases
  rw [if_neg (Int.not_lt.mpr ordered)]
  exact readCases

/-- A switch over listed keys is read once it is known that its cases are there. -/
theorem lookupSwitch_ok
    {offset : Nat}
    {cursor middle : Cursor}
    {default count : Int}
    (readHeader : lookupHeader cursor = .ok ((default, count), middle))
    (nonnegative : 0 ≤ count)
    (enough : 8 * count.toNat ≤ middle.rest.length) :
    ∃ operand next, lookupSwitch offset cursor = .ok (operand, next) := by
  obtain ⟨operand, next, readCases⟩ :=
    switchCases_ok (lookupCase_sized offset) enough
  refine ⟨operand, next, ?_⟩
  rw [lookupSwitch_eq]
  refine bind_eq_ok.mpr ⟨_, middle, readHeader, ?_⟩
  unfold lookupCases
  rw [if_neg (Int.not_lt.mpr nonnegative)]
  exact readCases

theorem tableSwitch_consumes (offset : Nat) : Consumes (tableSwitch offset) := by
  rw [tableSwitch_eq]
  refine tableHeader_consumes.bind fun _ => Consumes.choice (.refuse _ _) ?_
  intro cursor value next read
  exact (switchCases_eq_ok (Sized.signedNumber 4) read).1

theorem lookupSwitch_consumes (offset : Nat) : Consumes (lookupSwitch offset) := by
  rw [lookupSwitch_eq]
  refine lookupHeader_consumes.bind fun _ => Consumes.choice (.refuse _ _) ?_
  intro cursor value next read
  exact (switchCases_eq_ok (lookupCase_sized offset) read).1

theorem length_consecutive
    (count : Nat)
    (first : Int) :
    (consecutive count first).length = count := by
  induction count generalizing first with
  | zero =>
      rfl
  | succ count inductionHypothesis =>
      rw [consecutive, List.length_cons, inductionHypothesis]

/-- Each key of a switch over a range takes four bytes. -/
theorem tableSwitch_keys
    {offset : Nat}
    {cursor next : Cursor}
    {operand : Operand}
    (read : tableSwitch offset cursor = .ok (operand, next)) :
    cursor.offset + 4 * operand.keys.length ≤ next.offset := by
  rw [tableSwitch_eq] at read
  obtain ⟨⟨default, low, high⟩, middle, readHeader, read⟩ := bind_eq_ok.mp read
  obtain ⟨header, _, middleOffset⟩ := tableHeader_consumes _ _ _ readHeader
  dsimp only [tableCases] at read
  split at read
  · cases read
  · obtain ⟨_, nextOffset, targets, length, rfl⟩ :=
      switchCases_eq_ok (Sized.signedNumber 4) read
    simp only [Operand.keys, List.length_map, List.length_zip,
      length_consecutive, length, Nat.min_self]
    omega

/-- Each key of a switch over listed keys takes eight bytes with its target. -/
theorem lookupSwitch_keys
    {offset : Nat}
    {cursor next : Cursor}
    {operand : Operand}
    (read : lookupSwitch offset cursor = .ok (operand, next)) :
    cursor.offset + 8 * operand.keys.length ≤ next.offset := by
  rw [lookupSwitch_eq] at read
  obtain ⟨⟨default, count⟩, middle, readHeader, read⟩ := bind_eq_ok.mp read
  obtain ⟨header, _, middleOffset⟩ := lookupHeader_consumes _ _ _ readHeader
  unfold lookupCases at read
  split at read
  · cases read
  · obtain ⟨_, nextOffset, cases, length, rfl⟩ :=
      switchCases_eq_ok (lookupCase_sized offset) read
    simp only [Operand.keys, List.length_map, length]
    omega

end Code

end KeyAudit
