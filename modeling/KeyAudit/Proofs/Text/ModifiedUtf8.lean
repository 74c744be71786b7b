import KeyAudit.Text.ModifiedUtf8
import KeyAudit.Proofs.Text.Utf16

namespace KeyAudit

/-!
# Texts of class files and their code units

The text of a class file is a sequence of 16-bit units, each encoded on its own.
Decoding gives the code points that the units spell: a high surrogate and a low
one right after it are one code point, and every other unit is a code point of
its own.  Decoded text never has such a pair left in it.
-/

namespace Utf8

variable {surrogates : Bool}
variable {position : Nat}
variable {first second third fourth : UInt8}

theorem toNat_ofNat
    {number : Nat}
    (isByte : number < 0x100) :
    (UInt8.ofNat number).toNat = number := by
  rw [UInt8.toNat_ofNat']
  exact Nat.mod_eq_of_lt isByte

theorem toNat_continuation
    (bits : Nat) :
    (continuation bits).toNat = 0x80 + bits % 0x40 := by
  exact toNat_ofNat (by omega)

@[simp] theorem isContinuation_continuation
    (bits : Nat) :
    isContinuation (continuation bits) = true := by
  simp only [isContinuation, toNat_continuation, Bool.and_eq_true,
    decide_eq_true_eq]
  omega

@[simp] theorem payload_continuation
    (bits : Nat) :
    payload (continuation bits) = bits % 0x40 := by
  simp only [payload, toNat_continuation]
  omega

theorem decodeFrom_one
    (isOne : first.toNat < 0x80)
    (rest : Bytes) :
    decodeFrom surrogates position (first :: rest) =
      (decodeFrom surrogates (position + 1) rest).map
        (point first.toNat :: ·) := by
  rw [decodeFrom.eq_def]
  simp only [if_pos isOne]
  cases decodeFrom surrogates (position + 1) rest <;> rfl

theorem decodeFrom_two
    (lower : 0xC2 ≤ first.toNat)
    (upper : first.toNat < 0xE0)
    (continues : isContinuation second = true)
    (rest : Bytes) :
    decodeFrom surrogates position (first :: second :: rest) =
      (decodeFrom surrogates (position + 2) rest).map
        (point (first.toNat % 0x20 * 0x40 + payload second) :: ·) := by
  have notOne : ¬first.toNat < 0x80 := by omega
  have notBad : ¬first.toNat < 0xC2 := by omega
  simp only [decodeFrom, if_neg notOne, if_neg notBad, if_pos upper,
    if_pos continues]
  cases decodeFrom surrogates (position + 2) rest <;> rfl

theorem decodeFrom_three
    (lower : 0xE0 ≤ first.toNat)
    (upper : first.toNat < 0xF0)
    (inRange : secondOfThree surrogates first second = true)
    (continues : isContinuation third = true)
    (rest : Bytes) :
    decodeFrom surrogates position (first :: second :: third :: rest) =
      (decodeFrom surrogates (position + 3) rest).map
        (point (first.toNat % 0x10 * 0x1000 + payload second * 0x40 +
          payload third) :: ·) := by
  have notOne : ¬first.toNat < 0x80 := by omega
  have notBad : ¬first.toNat < 0xC2 := by omega
  have notTwo : ¬first.toNat < 0xE0 := by omega
  simp only [decodeFrom, if_neg notOne, if_neg notBad, if_neg notTwo,
    if_pos upper, inRange, continues]
  cases decodeFrom surrogates (position + 3) rest <;> rfl

theorem decodeFrom_four
    (lower : 0xF0 ≤ first.toNat)
    (upper : first.toNat < 0xF5)
    (inRange : secondOfFour first second = true)
    (continues : isContinuation third = true)
    (ends : isContinuation fourth = true)
    (rest : Bytes) :
    decodeFrom surrogates position
        (first :: second :: third :: fourth :: rest) =
      (decodeFrom surrogates (position + 4) rest).map
        (point (first.toNat % 0x08 * 0x40000 + payload second * 0x1000 +
          payload third * 0x40 + payload fourth) :: ·) := by
  have notOne : ¬first.toNat < 0x80 := by omega
  have notBad : ¬first.toNat < 0xC2 := by omega
  have notTwo : ¬first.toNat < 0xE0 := by omega
  have notThree : ¬first.toNat < 0xF0 := by omega
  simp only [decodeFrom, if_neg notOne, if_neg notBad, if_neg notTwo,
    if_neg notThree, if_pos upper, inRange, continues, ends]
  cases decodeFrom surrogates (position + 4) rest <;> rfl

theorem point_eq
    (target : CodePoint)
    {number : Nat}
    (same : number = target.val) :
    point number = target := by
  apply Fin.ext
  rw [same]
  exact Nat.mod_eq_of_lt target.isLt

/-- A code point is decoded from its own bytes, whatever follows. -/
theorem decodeFrom_encodePoint
    (target : CodePoint)
    (rest : Bytes) :
    decodeFrom true position (encodePoint target ++ rest) =
      (decodeFrom true (position + width target) rest).map
        (target :: ·) := by
  have bound := target.isLt
  unfold encodePoint width
  by_cases isOne : target.val < 0x80
  · have lead := toNat_ofNat (show target.val < 0x100 by omega)
    simp only [if_pos isOne, List.cons_append, List.nil_append]
    rw [decodeFrom_one (by omega), point_eq target lead]
  by_cases isTwo : target.val < 0x800
  · have lead := toNat_ofNat (show 0xC0 + target.val / 0x40 < 0x100 by omega)
    simp only [if_neg isOne, if_pos isTwo, List.cons_append,
      List.nil_append]
    rw [decodeFrom_two (by omega) (by omega) (by simp), lead,
      payload_continuation, point_eq target (by omega)]
  by_cases isThree : target.val < 0x10000
  · have lead :=
      toNat_ofNat (show 0xE0 + target.val / 0x1000 < 0x100 by omega)
    have inRange :
        secondOfThree true (UInt8.ofNat (0xE0 + target.val / 0x1000))
          (continuation (target.val / 0x40)) = true := by
      simp only [secondOfThree, isContinuation_continuation, lead,
        toNat_continuation]
      simp
      omega
    simp only [if_neg isOne, if_neg isTwo, if_pos isThree,
      List.cons_append, List.nil_append]
    rw [decodeFrom_three (by omega) (by omega) inRange (by simp), lead,
      payload_continuation, payload_continuation,
      point_eq target (by omega)]
  · have lead :=
      toNat_ofNat (show 0xF0 + target.val / 0x40000 < 0x100 by omega)
    have inRange :
        secondOfFour (UInt8.ofNat (0xF0 + target.val / 0x40000))
          (continuation (target.val / 0x1000)) = true := by
      simp only [secondOfFour, isContinuation_continuation, lead,
        toNat_continuation]
      simp
      omega
    simp only [if_neg isOne, if_neg isTwo, if_neg isThree,
      List.cons_append, List.nil_append]
    rw [decodeFrom_four (by omega) (by omega) inRange (by simp) (by simp),
      lead, payload_continuation, payload_continuation,
      payload_continuation, point_eq target (by omega)]

theorem decodeFrom_encoded
    (points : Text) :
    decodeFrom true position (points.flatMap encodePoint) = .ok points := by
  induction points generalizing position with
  | nil =>
      rfl
  | cons target points inductionHypothesis =>
      rw [List.flatMap_cons, decodeFrom_encodePoint, inductionHypothesis]
      rfl

/-- No byte of a code point is the first byte of the long form of U+0000. -/
theorem ne_of_mem_encodePoint
    {target : CodePoint}
    {byte : UInt8}
    (member : byte ∈ encodePoint target) :
    byte ≠ 0xC0 := by
  have bound := target.isLt
  have lead
      {number : Nat}
      (isByte : number < 0x100)
      (differs : number ≠ 0xC0) :
      UInt8.ofNat number ≠ 0xC0 := by
    intro same
    have numbers := congrArg UInt8.toNat same
    rw [toNat_ofNat isByte] at numbers
    exact differs numbers
  have follows (bits : Nat) : continuation bits ≠ 0xC0 :=
    lead (by omega) (by omega)
  unfold encodePoint width at member
  split_ifs at member <;>
    simp only [List.mem_cons, List.not_mem_nil, or_false] at member
  · subst member
    exact lead (by omega) (by omega)
  · rcases member with rfl | rfl
    · exact lead (by omega) (by omega)
    · exact follows _
  · rcases member with rfl | rfl | rfl
    · exact lead (by omega) (by omega)
    · exact follows _
    · exact follows _
  · rcases member with rfl | rfl | rfl | rfl
    · exact lead (by omega) (by omega)
    · exact follows _
    · exact follows _
    · exact follows _

end Utf8

namespace ModifiedUtf8

open Utf16 (Apart decode?_encoded flatMap_unitsOf pointOf pointsOf pointsOf_apart
  pointsOf_flatMap)

/-- The bytes of a code unit. -/
def encodeUnit (unit : UInt16) : Bytes :=
  let number := unit.toNat
  if number = 0 then
    [0xC0, 0x80]
  else if number < 0x80 then
    [UInt8.ofNat number]
  else if number < 0x800 then
    [UInt8.ofNat (0xC0 + number / 0x40), UInt8.ofNat (0x80 + number % 0x40)]
  else
    [UInt8.ofNat (0xE0 + number / 0x1000),
      UInt8.ofNat (0x80 + number / 0x40 % 0x40),
      UInt8.ofNat (0x80 + number % 0x40)]

/-- The bytes of code units, each encoded on its own. -/
def encode (units : List UInt16) : Bytes :=
  units.flatMap encodeUnit

def IsHigh (unit : UInt16) : Prop :=
  0xD800 ≤ unit.toNat ∧ unit.toNat < 0xDC00

def IsLow (unit : UInt16) : Prop :=
  0xDC00 ≤ unit.toNat ∧ unit.toNat < 0xE000

/-- The code points that code units spell. -/
inductive Spells : List UInt16 → Text → Prop where
  | nothing :
      Spells [] []
  | pair
      {high low : UInt16}
      {units : List UInt16}
      {point : CodePoint}
      {text : Text}
      (isHigh : IsHigh high)
      (isLow : IsLow low)
      (value :
        point.val =
          0x10000 + (high.toNat - 0xD800) * 0x400 + (low.toNat - 0xDC00))
      (spells : Spells units text) :
      Spells (high :: low :: units) (point :: text)
  | single
      {unit : UInt16}
      {units : List UInt16}
      {point : CodePoint}
      {text : Text}
      (alone : IsHigh unit → ∀ next, units.head? = some next → ¬IsLow next)
      (value : point.val = unit.toNat)
      (spells : Spells units text) :
      Spells (unit :: units) (point :: text)

theorem restoreNul_append
    {bytes : Bytes}
    (others : ∀ byte ∈ bytes, byte ≠ 0xC0)
    (rest : Bytes) :
    restoreNul (bytes ++ rest) = bytes ++ restoreNul rest := by
  induction bytes with
  | nil =>
      rfl
  | cons byte bytes inductionHypothesis =>
      obtain ⟨differs, others⟩ := List.forall_mem_cons.mp others
      have later := inductionHypothesis others
      rw [List.cons_append, List.cons_append, ← later]
      cases bytes ++ rest <;> simp [restoreNul, differs]

theorem encodeUnit_eq
    {unit : UInt16}
    (notNul : unit.toNat ≠ 0) :
    encodeUnit unit = Utf8.encodePoint (pointOf unit) := by
  have bound : unit.toNat < 0x10000 := unit.toNat_lt
  unfold encodeUnit Utf8.encodePoint Utf8.width pointOf
  simp only [if_neg notNul, if_pos bound]
  split_ifs <;> rfl

/-- The long form of U+0000 is found where a unit is zero, and nowhere else. -/
theorem restoreNul_encode
    (units : List UInt16) :
    restoreNul (encode units) =
      (units.map pointOf).flatMap Utf8.encodePoint := by
  induction units with
  | nil =>
      rfl
  | cons unit units inductionHypothesis =>
      rw [encode, List.flatMap_cons, List.map_cons, List.flatMap_cons,
        ← inductionHypothesis]
      by_cases isNul : unit.toNat = 0
      · have isZero : unit = 0 := UInt16.toNat_inj.mp isNul
        subst isZero
        rfl
      · rw [encodeUnit_eq isNul]
        exact restoreNul_append
          (fun _ member => Utf8.ne_of_mem_encodePoint member) _

theorem decode?_encode_eq
    (units : List UInt16) :
    decode? (encode units) = some (pointsOf units) := by
  unfold decode?
  rw [restoreNul_encode, Utf8.decodeFrom_encoded]
  dsimp only
  rw [decode?_encoded, flatMap_unitsOf]

theorem isHighSurrogate_pointOf
    {unit : UInt16} :
    (pointOf unit).isHighSurrogate = true ↔ IsHigh unit := by
  rw [CodePoint.isHighSurrogate, Bool.and_eq_true, decide_eq_true_eq,
    decide_eq_true_eq]
  rfl

theorem isLowSurrogate_pointOf
    {unit : UInt16} :
    (pointOf unit).isLowSurrogate = true ↔ IsLow unit := by
  rw [CodePoint.isLowSurrogate, Bool.and_eq_true, decide_eq_true_eq,
    decide_eq_true_eq]
  rfl

theorem ofPair_pointOf
    {high low : UInt16}
    (isHigh : IsHigh high)
    (isLow : IsLow low) :
    (CodePoint.ofPair (pointOf high) (pointOf low)).val =
      0x10000 + (high.toNat - 0xD800) * 0x400 + (low.toNat - 0xDC00) := by
  obtain ⟨highLower, highUpper⟩ := isHigh
  obtain ⟨lowLower, lowUpper⟩ := isLow
  simp only [CodePoint.ofPair, pointOf]
  omega

/-- The code points of units are those that the units spell. -/
theorem spells_pointsOf
    (units : List UInt16) :
    Spells units (pointsOf units) := by
  fun_induction pointsOf units with
  | case1 =>
      exact .nothing
  | case2 unit =>
      exact .single (by simp) rfl .nothing
  | case3 high low rest paired inductionHypothesis =>
      rw [Bool.and_eq_true, isHighSurrogate_pointOf,
        isLowSurrogate_pointOf] at paired
      obtain ⟨isHigh, isLow⟩ := paired
      exact .pair isHigh isLow (ofPair_pointOf isHigh isLow)
        inductionHypothesis
  | case4 unit next rest notPaired inductionHypothesis =>
      refine .single ?_ rfl inductionHypothesis
      rintro isHigh _ ⟨⟩ isLow
      apply notPaired
      rw [Bool.and_eq_true, isHighSurrogate_pointOf,
        isLowSurrogate_pointOf]
      exact ⟨isHigh, isLow⟩

/-- Code units spell only one text. -/
theorem Spells.unique
    {units : List UInt16}
    {text other : Text}
    (spells : Spells units text)
    (spellsOther : Spells units other) :
    other = text := by
  induction spells generalizing other with
  | nothing =>
      cases spellsOther
      rfl
  | pair isHigh isLow value _ inductionHypothesis =>
      cases spellsOther with
      | pair _ _ otherValue spellsRest =>
          rw [inductionHypothesis spellsRest,
            Fin.ext (otherValue.trans value.symm)]
      | single alone =>
          exact (alone isHigh _ rfl isLow).elim
  | single alone value _ inductionHypothesis =>
      cases spellsOther with
      | pair isHigh isLow =>
          exact (alone isHigh _ rfl isLow).elim
      | single _ otherValue spellsRest =>
          rw [inductionHypothesis spellsRest,
            Fin.ext (otherValue.trans value.symm)]

/-- The bytes of a code point hold no long form of U+0000. -/
theorem restoreNul_encoded
    (text : Text) :
    restoreNul (text.flatMap Utf8.encodePoint) =
      text.flatMap Utf8.encodePoint := by
  have others : ∀ byte ∈ text.flatMap Utf8.encodePoint, byte ≠ 0xC0 := by
    intro byte member
    obtain ⟨_, _, member⟩ := List.mem_flatMap.mp member
    exact Utf8.ne_of_mem_encodePoint member
  have same := restoreNul_append others []
  rwa [List.append_nil, restoreNul, List.append_nil] at same

theorem decode?_encodePoint_eq
    {text : Text}
    (chain : text.IsChain Apart) :
    decode? (text.flatMap Utf8.encodePoint) = some text := by
  unfold decode?
  rw [restoreNul_encoded, Utf8.decodeFrom_encoded]
  dsimp only
  rw [decode?_encoded, pointsOf_flatMap chain]

theorem units_of_decode?
    {bytes : Bytes}
    {text : Text}
    (decoded : decode? bytes = some text) :
    ∃ units, pointsOf units = text := by
  unfold decode? at decoded
  split at decoded
  · cases decoded
  · rw [decode?_encoded] at decoded
    exact ⟨_, Option.some.inj decoded⟩

/--
Decoding what code units are encoded as succeeds and gives the text that the
units spell.  Whatever is decoded, no high surrogate stands right before a low
one.  A text that has no such halves is decoded from its UTF-8 too, where a
supplementary code point is one form of four bytes.
-/
theorem decode?_encode :
    (∀ units,
      ∃ text,
        decode? (encode units) = some text ∧
          Spells units text ∧ ∀ other, Spells units other → other = text) ∧
      (∀ bytes before high low after,
        decode? bytes = some (before ++ high :: low :: after) →
        high.isHighSurrogate = true →
        low.isLowSurrogate = false) ∧
      ∀ text : Text,
        text.IsChain Apart →
        decode? (text.flatMap Utf8.encodePoint) = some text := by
  refine ⟨?_, ?_, fun _ => decode?_encodePoint_eq⟩
  · intro units
    have spells := spells_pointsOf units
    exact
      ⟨_, decode?_encode_eq units, spells, fun _ other =>
        spells.unique other⟩
  · intro bytes before high low after decoded isHigh
    obtain ⟨units, spelled⟩ := units_of_decode? decoded
    have chain := pointsOf_apart units
    rw [spelled, List.isChain_append_cons_cons] at chain
    have apart : Apart high low := chain.2.1
    exact Bool.eq_false_iff.mpr fun isLow => apart ⟨isHigh, isLow⟩

/--
A byte order mark, halves in the wrong order and a doubled high half are kept,
and so is a low half after a supplementary code point in UTF-8.
-/
theorem decode?_encode_loneHalves :
    decode? (encode [0xFEFF, 0xDE00, 0xD800, 0xD83D, 0xDE00, 0x0000]) =
        some ([0xFEFF, 0xDE00, 0xD800, 0x1F600, 0x0000].map Utf8.point) ∧
      (Utf8.point 0x1F600).isLowSurrogate = false ∧
      decode? [0xF0, 0x9F, 0x98, 0x80, 0xED, 0xB8, 0x80] =
        some [Utf8.point 0x1F600, Utf8.point 0xDE00] := by
  have decoded :
      decode? (encode [0xFEFF, 0xDE00, 0xD800, 0xD83D, 0xDE00, 0x0000]) =
        some ([0xFEFF, 0xDE00].map Utf8.point ++
          Utf8.point 0xD800 :: Utf8.point 0x1F600 :: [Utf8.point 0]) := by
    decide
  have apart : Apart (Utf8.point 0x1F600) (Utf8.point 0xDE00) := by
    unfold Apart
    decide
  exact
    ⟨decoded, decode?_encode.2.1 _ _ _ _ _ decoded rfl,
      decode?_encode.2.2 [Utf8.point 0x1F600, Utf8.point 0xDE00]
        (List.isChain_cons_cons.mpr ⟨apart, .singleton _⟩)⟩

end ModifiedUtf8

end KeyAudit
