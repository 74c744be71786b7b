import KeyAudit.Text.Utf16
import Mathlib.Data.List.Chain

namespace KeyAudit.Utf16

/-!
# Text through UTF-16 and back

What was encoded always decodes, to the code points of its units.  No text
comes back with a high surrogate right before a low one, and a text that has
none comes back as it was.
-/

theorem unit_of_bytes
    (unit : UInt16) :
    ByteOrder.lowerFirst.unit
        (UInt8.ofNat (unit.toNat % 0x100)) (UInt8.ofNat (unit.toNat / 0x100)) =
      unit := by
  have bound : unit.toNat < 0x10000 := unit.toNat_lt
  apply UInt16.toNat_inj.mp
  simp only [ByteOrder.unit, UInt8.toNat_ofNat', UInt16.toNat_ofNat']
  omega

theorem units?_flatMap
    (units : List UInt16) :
    units? .lowerFirst (units.flatMap unitBytes) = some units := by
  induction units with
  | nil =>
      rfl
  | cons unit units inductionHypothesis =>
      rw [List.flatMap_cons, unitBytes, List.cons_append, List.cons_append,
        List.nil_append, units?, inductionHypothesis, unit_of_bytes,
        Option.map_some]

/-- The mark is taken off, and the units are read as they were written. -/
theorem decode?_encoded
    (text : Text) :
    decode? (encode text) = some (pointsOf (text.flatMap unitsOf)) := by
  have marked :
      takeMark (encode text) =
        (.lowerFirst, (text.flatMap unitsOf).flatMap unitBytes) :=
    rfl
  rw [decode?, marked]
  dsimp only
  rw [units?_flatMap, Option.map_some]

theorem unitsOf_pointOf
    (unit : UInt16) :
    unitsOf (pointOf unit) = [unit] := by
  have bound : (pointOf unit).val < 0x10000 := unit.toNat_lt
  rw [unitsOf, if_pos bound, pointOf, UInt16.ofNat_toNat]

theorem flatMap_unitsOf
    (units : List UInt16) :
    (units.map pointOf).flatMap unitsOf = units := by
  rw [List.flatMap_map]
  simp only [unitsOf_pointOf, List.flatMap_singleton']

/-- Two code points that are not the halves of a pair. -/
def Apart (first second : CodePoint) : Prop :=
  ¬(first.isHighSurrogate = true ∧ second.isLowSurrogate = true)

theorem le_ofPair
    (high low : CodePoint) :
    0x10000 ≤ (CodePoint.ofPair high low).val := by
  have bound :
      0x10000 + high.val % 0x400 * 0x400 + low.val % 0x400 < 0x110000 := by
    omega
  simp only [CodePoint.ofPair, Nat.mod_eq_of_lt bound]
  omega

/-- What a pair is combined into is no half of another pair. -/
theorem not_surrogate_ofPair
    (high low : CodePoint) :
    (CodePoint.ofPair high low).isHighSurrogate = false ∧
      (CodePoint.ofPair high low).isLowSurrogate = false := by
  have beyond := le_ofPair high low
  simp only [CodePoint.isHighSurrogate, CodePoint.isLowSurrogate,
    Bool.and_eq_false_iff, decide_eq_false_iff_not]
  omega

/-- The code points of units begin with a low surrogate only if the units do. -/
theorem head_pointsOf
    {first : UInt16}
    {rest : List UInt16}
    {point : CodePoint}
    (isHead : (pointsOf (first :: rest)).head? = some point)
    (isLow : point.isLowSurrogate = true) :
    (pointOf first).isLowSurrogate = true := by
  unfold pointsOf at isHead
  cases rest with
  | nil =>
      cases isHead
      exact isLow
  | cons second rest =>
      dsimp only at isHead
      split at isHead
      · cases isHead
        rw [(not_surrogate_ofPair _ _).2] at isLow
        cases isLow
      · cases isHead
        exact isLow

theorem pointsOf_apart
    (units : List UInt16) :
    (pointsOf units).IsChain Apart := by
  fun_induction pointsOf units with
  | case1 =>
      exact .nil
  | case2 unit =>
      exact .singleton _
  | case3 first second rest _ inductionHypothesis =>
      refine List.isChain_cons.mpr ⟨?_, inductionHypothesis⟩
      rintro point _ ⟨isHigh, _⟩
      rw [(not_surrogate_ofPair _ _).1] at isHigh
      cases isHigh
  | case4 first second rest notPaired inductionHypothesis =>
      refine List.isChain_cons.mpr ⟨?_, inductionHypothesis⟩
      rintro point isHead ⟨isHigh, isLow⟩
      apply notPaired
      rw [isHigh, head_pointsOf isHead isLow]
      rfl

theorem val_pointOf_ofNat
    {number : Nat}
    (isUnit : number < 0x10000) :
    (pointOf (UInt16.ofNat number)).val = number :=
  UInt16.toNat_ofNat'.trans (Nat.mod_eq_of_lt isUnit)

theorem val_leading
    {point : CodePoint} :
    (pointOf (leading point)).val = 0xD800 + (point.val - 0x10000) / 0x400 :=
  val_pointOf_ofNat (by have bound := point.isLt; omega)

theorem val_trailing
    {point : CodePoint} :
    (pointOf (trailing point)).val = 0xDC00 + (point.val - 0x10000) % 0x400 :=
  val_pointOf_ofNat (by omega)

theorem isHighSurrogate_leading
    (point : CodePoint) :
    (pointOf (leading point)).isHighSurrogate = true := by
  have bound := point.isLt
  rw [CodePoint.isHighSurrogate, val_leading, Bool.and_eq_true,
    decide_eq_true_eq, decide_eq_true_eq]
  omega

theorem isLowSurrogate_trailing
    (point : CodePoint) :
    (pointOf (trailing point)).isLowSurrogate = true := by
  rw [CodePoint.isLowSurrogate, val_trailing, Bool.and_eq_true,
    decide_eq_true_eq, decide_eq_true_eq]
  omega

theorem ofPair_units
    {point : CodePoint}
    (supplementary : ¬point.val < 0x10000) :
    CodePoint.ofPair (pointOf (leading point)) (pointOf (trailing point)) =
      point := by
  have bound := point.isLt
  apply Fin.ext
  simp only [CodePoint.ofPair, val_leading, val_trailing]
  omega

/-- The first unit of a code point is a low surrogate only if the point is one. -/
theorem head_unitsOf
    {point : CodePoint}
    {unit : UInt16}
    (isHead : (unitsOf point).head? = some unit)
    (isLow : (pointOf unit).isLowSurrogate = true) :
    point.isLowSurrogate = true := by
  unfold unitsOf at isHead
  split at isHead
  next isUnit =>
    cases isHead
    rw [CodePoint.isLowSurrogate, val_pointOf_ofNat isUnit] at isLow
    exact isLow
  next =>
    cases isHead
    have isHigh := isHighSurrogate_leading point
    simp only [CodePoint.isHighSurrogate, CodePoint.isLowSurrogate,
      Bool.and_eq_true, decide_eq_true_eq] at isHigh isLow
    omega

/-- A code point is read back from its units, unless it is half of a pair with what follows. -/
theorem pointsOf_unitsOf
    {point : CodePoint}
    {units : List UInt16}
    (apart : ∀ next, units.head? = some next → Apart point (pointOf next)) :
    pointsOf (unitsOf point ++ units) = point :: pointsOf units := by
  unfold unitsOf
  split
  next isUnit =>
    have same : pointOf (UInt16.ofNat point.val) = point :=
      Fin.ext (val_pointOf_ofNat isUnit)
    cases units with
    | nil =>
        simp only [List.append_nil, pointsOf, same]
    | cons next rest =>
        have unpaired :
            ¬(point.isHighSurrogate && (pointOf next).isLowSurrogate) = true := by
          rw [Bool.and_eq_true]
          exact apart next rfl
        rw [List.cons_append, List.nil_append, pointsOf, same, if_neg unpaired]
  next supplementary =>
    rw [List.cons_append, List.cons_append, List.nil_append, pointsOf,
      isHighSurrogate_leading, isLowSurrogate_trailing, Bool.and_self, if_pos rfl,
      ofPair_units supplementary]

theorem pointsOf_flatMap
    {text : Text}
    (chain : text.IsChain Apart) :
    pointsOf (text.flatMap unitsOf) = text := by
  induction text with
  | nil =>
      rfl
  | cons point text inductionHypothesis =>
      obtain ⟨apart, chain⟩ := List.isChain_cons.mp chain
      rw [List.flatMap_cons, pointsOf_unitsOf, inductionHypothesis chain]
      rintro unit isHead ⟨isHigh, isLow⟩
      cases text with
      | nil =>
          cases isHead
      | cons next text =>
          have isFirst : (unitsOf next).head? = some unit := by
            rw [List.flatMap_cons, List.head?_append_of_ne_nil] at isHead
            · exact isHead
            · unfold unitsOf
              split <;> exact List.cons_ne_nil _ _
          exact apart next rfl ⟨isHigh, head_unitsOf isFirst isLow⟩

end KeyAudit.Utf16
