import KeyAudit.Class.Cursor
import Mathlib.Data.List.Forall2

namespace KeyAudit

/-!
# Reading back what was written

Numbers in big-endian bytes are read back if they fit their width.  A step that
reads some bytes whatever follows them can be put after another such step, and
can be repeated; so a reader is matched with a writer field by field.
-/

namespace Bytes

theorem toNat_append_singleton
    (bytes : Bytes)
    (byte : UInt8) :
    toNat (bytes ++ [byte]) = toNat bytes * 256 + byte.toNat := by
  simp [toNat]

@[simp] theorem length_ofNat
    (width number : Nat) :
    (ofNat width number).length = width := by
  induction width generalizing number with
  | zero =>
      rfl
  | succ width inductionHypothesis =>
      simp [ofNat, inductionHypothesis]

/-- A number that fits its bytes is read back from them. -/
theorem toNat_ofNat
    {width number : Nat}
    (fits : number < Nat.pow 256 width) :
    toNat (ofNat width number) = number := by
  induction width generalizing number with
  | zero =>
      simp only [Nat.pow_eq, Nat.pow_zero, Nat.lt_one_iff] at fits
      subst number
      rfl
  | succ width inductionHypothesis =>
      have upper : number / 256 < Nat.pow 256 width := by
        rw [Nat.pow_eq, Nat.pow_succ] at fits
        rw [Nat.pow_eq]
        exact Nat.div_lt_of_lt_mul (by rwa [Nat.mul_comm])
      rw [ofNat, toNat_append_singleton, inductionHypothesis upper,
        UInt8.toNat_ofNat']
      omega

theorem split?_append
    (bytes rest : Bytes) :
    split? bytes.length (bytes ++ rest) = some (bytes, rest) := by
  induction bytes with
  | nil =>
      rfl
  | cons byte bytes inductionHypothesis =>
      simp [split?, inductionHypothesis]

theorem split?_eq_some
    {count : Nat}
    {bytes taken rest : Bytes} :
    split? count bytes = some (taken, rest) ↔
      bytes = taken ++ rest ∧ taken.length = count := by
  constructor
  · intro isSplit
    induction count generalizing bytes taken with
    | zero =>
        cases isSplit
        exact ⟨rfl, rfl⟩
    | succ count inductionHypothesis =>
        cases bytes with
        | nil =>
            cases isSplit
        | cons byte bytes =>
            unfold split? at isSplit
            split at isSplit
            · cases isSplit
            · rename_i others after isRest
              cases isSplit
              obtain ⟨shape, length⟩ := inductionHypothesis isRest
              exact ⟨by rw [shape, List.cons_append], by rw [List.length_cons, length]⟩
  · rintro ⟨rfl, rfl⟩
    exact split?_append taken rest

/-- Fewer bytes than are asked for cannot be split off. -/
theorem split?_eq_none
    {count : Nat}
    {bytes : Bytes}
    (tooShort : bytes.length < count) :
    split? count bytes = none := by
  cases isSplit : split? count bytes with
  | none =>
      rfl
  | some parts =>
      obtain ⟨rfl, rfl⟩ := split?_eq_some.mp isSplit
      rw [List.length_append] at tooShort
      omega

/-- Whether an integer has a two's complement in so many bytes. -/
def FitsSigned (width : Nat) (number : Int) : Prop :=
  -(Nat.pow 256 width / 2 : Nat) ≤ number ∧
    number < (Nat.pow 256 width / 2 : Nat)

instance
    (width : Nat)
    (number : Int) :
    Decidable (FitsSigned width number) :=
  inferInstanceAs (Decidable (_ ∧ _))

/-- An integer is read back from its two's complement. -/
theorem signed_unsigned
    {width : Nat}
    {number : Int}
    (fits : FitsSigned width number) :
    signed width (unsigned width number) = number := by
  obtain ⟨lower, upper⟩ := fits
  unfold signed unsigned
  generalize Nat.pow 256 width = size at lower upper ⊢
  by_cases negative : number < 0
  · have wrapped : number % (size : Int) = number + size := by
      rw [← Int.add_emod_right, Int.emod_eq_of_lt (by omega) (by omega)]
    rw [wrapped]
    simp only
    rw [if_neg (by omega)]
    omega
  · rw [Int.emod_eq_of_lt (by omega) (by omega)]
    simp only
    rw [if_pos (by omega)]
    omega

theorem unsigned_lt
    (width : Nat)
    (number : Int) :
    unsigned width number < Nat.pow 256 width := by
  have positive : 0 < Nat.pow 256 width := by
    rw [Nat.pow_eq]
    exact Nat.pow_pos (by decide)
  unfold unsigned
  have nonnegative :=
    Int.emod_nonneg number
      (show (Nat.pow 256 width : Int) ≠ 0 by omega)
  have small :=
    Int.emod_lt_of_pos number
      (show (0 : Int) < Nat.pow 256 width by omega)
  omega

end Bytes

namespace Cursor

variable {Fault First Second : Type}

/-- A step reads exactly some bytes and gives a value, whatever follows the bytes. -/
def Reads
    (step : StateT Cursor (Except Fault) First)
    (offset : Nat)
    (bytes : Bytes)
    (value : First) : Prop :=
  ∀ rest,
    step ⟨bytes ++ rest, offset⟩ =
      .ok (value, ⟨rest, offset + bytes.length⟩)

namespace Reads

variable {step : StateT Cursor (Except Fault) First}
variable {next : First → StateT Cursor (Except Fault) Second}
variable {offset : Nat}
variable {bytes more : Bytes}
variable {first : First}
variable {second : Second}

theorem value
    (offset : Nat)
    (first : First) :
    Reads (pure first : StateT Cursor (Except Fault) First)
      offset [] first := by
  intro rest
  rfl

theorem bind
    (reads : Reads step offset bytes first)
    (readsMore : Reads (next first) (offset + bytes.length) more second) :
    Reads (step >>= next) offset (bytes ++ more) second := by
  intro rest
  change
    (step ⟨bytes ++ more ++ rest, offset⟩ >>=
      fun pair => next pair.1 pair.2) = _
  rw [List.append_assoc, reads]
  change next first _ = _
  rw [readsMore, List.length_append, Nat.add_assoc]

/-- A step that reads nothing may come first. -/
theorem bindNothing
    (reads : Reads step offset [] first)
    (readsMore : Reads (next first) offset more second) :
    Reads (step >>= next) offset more second :=
  reads.bind readsMore

/-- A step that reads nothing may come last. -/
theorem andThen
    (reads : Reads step offset bytes first)
    (readsNothing :
      Reads (next first) (offset + bytes.length) [] second) :
    Reads (step >>= next) offset bytes second := by
  have readsBoth := reads.bind readsNothing
  rwa [List.append_nil] at readsBoth

theorem map
    (reads : Reads step offset bytes first)
    (change : First → Second) :
    Reads (step >>= fun value => pure (change value))
      offset bytes (change first) :=
  reads.andThen (value _ _)

/-- Repeating a step reads items that were written one after the other. -/
theorem repeated
    {Item : Type}
    (times : Nat → StateT Cursor (Except Fault) (List First))
    (none : times 0 = pure [])
    (oneMore :
      ∀ count,
        times (count + 1) = do
          let first ← step
          let others ← times count
          return first :: others)
    {write : Item → Bytes}
    {items : List Item}
    {values : List First}
    (each :
      List.Forall₂
        (fun item value =>
          ∀ offset, Reads step offset (write item) value)
        items values)
    (offset : Nat) :
    Reads (times items.length) offset (items.flatMap write) values := by
  induction each generalizing offset with
  | nil =>
      rw [List.length_nil, none]
      exact value offset []
  | cons reads others inductionHypothesis =>
      rw [List.length_cons, oneMore, List.flatMap_cons]
      exact (reads offset).bind ((inductionHypothesis _).map _)

end Reads

end Cursor

namespace Reading

open Cursor

theorem take_reads
    (bytes : Bytes)
    (offset : Nat) :
    Reads (take bytes.length) offset bytes bytes := by
  intro rest
  simp only [take, Bytes.split?_append]

theorem number_reads
    {width number : Nat}
    (fits : number < Nat.pow 256 width)
    (offset : Nat) :
    Reads (Reading.number width) offset (Bytes.ofNat width number)
      number := by
  have taken := take_reads (Bytes.ofNat width number) offset
  rw [Bytes.length_ofNat] at taken
  have read := taken.map Bytes.toNat
  rwa [Bytes.toNat_ofNat fits] at read

theorem signedNumber_reads
    {width : Nat}
    {number : Int}
    (fits : Bytes.FitsSigned width number)
    (offset : Nat) :
    Reads (Reading.signedNumber width) offset
      (Bytes.ofNat width (Bytes.unsigned width number)) number := by
  have read :=
    (number_reads (Bytes.unsigned_lt width number) offset).map
      (Bytes.signed width)
  rwa [Bytes.signed_unsigned fits] at read

end Reading

end KeyAudit
