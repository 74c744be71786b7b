import KeyAudit.Class.File
import KeyAudit.Proofs.Class.Cursor
import KeyAudit.Proofs.Outcome

namespace KeyAudit

/-!
# Class files that are cut off

Reading a class goes through its bytes once and never asks how many are left.  So
a class that was read needs the bytes up to the end of its last method: it is read
alike whatever follows them, and reading fails for want of bytes if one of them
is missing.  The code of a method is read apart, but only after all bytes of its
attribute were there.
-/

namespace Reading

open Cursor

variable {First Second : Type}

/-- A step wants bytes behind the end of those that are there. -/
def WantsMore
    (step : Reading First)
    (offset : Nat)
    (bytes : Bytes) : Prop :=
  ∃ needed place,
    step ⟨bytes, offset⟩ = .error (.truncated needed place) ∧
      place ≤ offset + bytes.length ∧
        offset + bytes.length < place + needed

/-- A step reads some bytes whatever follows them, and wants more if some are missing. -/
structure ReadsFully
    (step : Reading First)
    (offset : Nat)
    (bytes : Bytes)
    (value : First) : Prop where
  reads : Reads step offset bytes value
  wantsMore :
    ∀ {present missing},
      bytes = present ++ missing →
      missing ≠ [] →
      WantsMore step offset present

/-- A step that fails for want of bytes fails before any step after it. -/
theorem WantsMore.bind
    {step : Reading First}
    {offset : Nat}
    {bytes : Bytes}
    (wants : WantsMore step offset bytes)
    (next : First → Reading Second) :
    WantsMore (step >>= next) offset bytes := by
  obtain ⟨needed, place, fails, within, short⟩ := wants
  refine ⟨needed, place, ?_, within, short⟩
  change (step ⟨bytes, offset⟩ >>= fun pair => next pair.1 pair.2) = _
  rw [fails]
  rfl

/-- A step that wants more bytes wants them also after bytes that were read. -/
theorem WantsMore.after
    {step : Reading First}
    {next : First → Reading Second}
    {offset : Nat}
    {bytes more : Bytes}
    {first : First}
    (reads : Reads step offset bytes first)
    (wants : WantsMore (next first) (offset + bytes.length) more) :
    WantsMore (step >>= next) offset (bytes ++ more) := by
  obtain ⟨needed, place, fails, within, short⟩ := wants
  rw [Nat.add_assoc, ← List.length_append] at within short
  refine ⟨needed, place, ?_, within, short⟩
  change
    (step ⟨bytes ++ more, offset⟩ >>= fun pair => next pair.1 pair.2) = _
  rw [reads]
  exact fails

/-- Bytes in two parts are cut in the second part or before the end of the first. -/
private theorem cut_append
    {bytes more present missing : Bytes}
    (shape : bytes ++ more = present ++ missing) :
    (∃ among, present = bytes ++ among ∧ more = among ++ missing) ∨
      ∃ absent, absent ≠ [] ∧ bytes = present ++ absent := by
  rcases List.append_eq_append_iff.mp shape with
    ⟨among, isPresent, isMore⟩ | ⟨absent, isBytes, isMissing⟩
  · exact Or.inl ⟨among, isPresent, isMore⟩
  · by_cases isEmpty : absent = []
    · subst isEmpty
      exact Or.inl ⟨[], by simpa using isBytes.symm, by simpa using isMissing.symm⟩
    · exact Or.inr ⟨absent, isEmpty, isBytes⟩

namespace ReadsFully

variable {step : Reading First}
variable {next : First → Reading Second}
variable {offset : Nat}
variable {bytes more : Bytes}
variable {first : First}
variable {second : Second}

theorem nothing
    (reads : Reads step offset [] first) :
    ReadsFully step offset [] first where
  reads := reads
  wantsMore := by
    intro present missing shape lacks
    obtain ⟨_, isEmpty⟩ := List.nil_eq_append_iff.mp shape
    exact (lacks isEmpty).elim

theorem bind
    (fully : ReadsFully step offset bytes first)
    (fullyMore :
      ReadsFully (next first) (offset + bytes.length) more second) :
    ReadsFully (step >>= next) offset (bytes ++ more) second where
  reads := fully.reads.bind fullyMore.reads
  wantsMore := by
    intro present missing shape lacks
    -- The cut is behind the bytes of the first step, or inside of them.
    rcases cut_append shape with
      ⟨among, rfl, behind⟩ | ⟨absent, isAbsent, inside⟩
    · exact .after fully.reads (fullyMore.wantsMore behind lacks)
    · exact (fully.wantsMore inside isAbsent).bind next

end ReadsFully

/--
A step is exacting if it needs every byte that it reads and no other, whenever it
gives a value.
-/
structure Exacting (step : Reading First) : Prop where
  fully :
    ∀ {cursor value next},
      step cursor = .ok (value, next) →
      ∃ bytes,
        cursor.rest = bytes ++ next.rest ∧
          ReadsFully step cursor.offset bytes value

namespace Exacting

variable {step : Reading First}
variable {next : First → Reading Second}

theorem value
    (first : First) :
    Exacting (pure first : Reading First) where
  fully := by
    intro cursor value next read
    cases read
    exact ⟨[], rfl, .nothing (.value _ _)⟩

theorem refuse
    (fault : ClassFault) :
    Exacting (throw fault : Reading First) where
  fully := by
    intro cursor value next read
    cases read

/-- What stands behind a refusal is never read. -/
theorem refused
    (fault : ClassFault)
    (next : First → Reading Second) :
    Exacting (throw fault >>= next) where
  fully := by
    intro cursor value next read
    cases read

theorem lookup
    (result : Except ClassFault First) :
    Exacting (Reading.lookup result) := by
  cases result with
  | error fault =>
      exact refuse fault
  | ok first =>
      exact value first

theorem bind
    (exacting : Exacting step)
    (later : ∀ value, Exacting (next value)) :
    Exacting (step >>= next) where
  fully := by
    rintro ⟨rest, offset⟩ value final read
    obtain ⟨first, ⟨middleRest, middleOffset⟩, readFirst, readLater⟩ :=
      Outcome.bindState_eq_ok.mp read
    obtain ⟨bytes, rfl, fully⟩ := exacting.fully readFirst
    obtain ⟨more, rfl, fullyMore⟩ := (later first).fully readLater
    have moved : middleOffset = offset + bytes.length := by
      have same := readFirst.symm.trans (fully.reads _)
      simp only [Except.ok.injEq, Prod.mk.injEq, Cursor.mk.injEq] at same
      exact same.2.2
    subst moved
    exact
      ⟨bytes ++ more, (List.append_assoc ..).symm, fully.bind fullyMore⟩

theorem choice
    {condition : Prop}
    [Decidable condition]
    {other : Reading First}
    (exacting : Exacting step)
    (otherExacting : Exacting other) :
    Exacting (if condition then step else other) := by
  split
  · exact exacting
  · exact otherExacting

/-- Bytes are taken all at once, so none of them may be missing. -/
theorem take
    (count : Nat) :
    Exacting (Reading.take count) where
  fully := by
    intro cursor value next read
    unfold Reading.take at read
    split at read
    · cases read
    · rename_i isSplit
      cases read
      obtain ⟨shape, rfl⟩ := Bytes.split?_eq_some.mp isSplit
      refine ⟨value, shape, take_reads value _, ?_⟩
      rintro present missing rfl lacks
      have positive := List.length_pos_iff.mpr lacks
      have tooShort : present.length < (present ++ missing).length := by
        rw [List.length_append]
        omega
      have fails := Bytes.split?_eq_none tooShort
      refine
        ⟨(present ++ missing).length, cursor.offset, ?_,
          Nat.le_add_right .., ?_⟩
      · simp only [Reading.take, fails]
      · omega

theorem number
    (width : Nat) :
    Exacting (Reading.number width) :=
  (take width).bind fun _ => value _

theorem signedNumber
    (width : Nat) :
    Exacting (Reading.signedNumber width) :=
  (number width).bind fun _ => value _

theorem times
    (exacting : Exacting step)
    (count : Nat) :
    Exacting (Reading.times count step) := by
  induction count with
  | zero =>
      exact value []
  | succ count inductionHypothesis =>
      exact exacting.bind fun _ => inductionHypothesis.bind fun _ => value _

theorem counted
    (exacting : Exacting step) :
    Exacting (Reading.counted step) :=
  (number 2).bind exacting.times

end Exacting

/-- What an exacting step reads from the start is a part of the bytes at their start. -/
theorem Exacting.run_eq_ok
    {step : Reading First}
    (exacting : Exacting step)
    {bytes : Bytes}
    {value : First}
    (read : run step bytes = .ok value) :
    ∃ length,
      length ≤ bytes.length ∧
        (∀ trailing, run step (bytes.take length ++ trailing) = .ok value) ∧
          ∀ {shorter},
            shorter < length →
            ∃ needed place,
              run step (bytes.take shorter) =
                  .error (.truncated needed place) ∧
                place ≤ shorter ∧
                  shorter < place + needed := by
  unfold run StateT.run at read
  split at read
  · cases read
  · rename_i final isRead
    cases read
    obtain ⟨taken, rfl, fully⟩ := exacting.fully isRead
    refine ⟨taken.length, by simp, ?_, ?_⟩
    · intro trailing
      simp only [List.take_left, run, StateT.run, fully.reads trailing]
    · intro shorter isShorter
      have lacks : taken.drop shorter ≠ [] := by
        simpa using isShorter
      obtain ⟨needed, place, fails, within, short⟩ :=
        fully.wantsMore (List.take_append_drop shorter taken).symm lacks
      rw [List.length_take_of_le (Nat.le_of_lt isShorter), Nat.zero_add] at within short
      refine ⟨needed, place, ?_, within, short⟩
      rw [List.take_append_of_le_length (Nat.le_of_lt isShorter)]
      simp only [run, StateT.run, fails]

end Reading

namespace ClassFile

open Reading

theorem readEntry_exacting
    (index : Nat)
    (tag : PoolTag) :
    Exacting (readEntry index tag) := by
  cases tag with
  | utf8 =>
      refine .bind (.number 2) fun length => .bind (.take length) fun bytes => ?_
      cases ModifiedUtf8.decode? bytes with
      | none =>
          exact .refuse _
      | some text =>
          exact .value _
  | integer =>
      exact .bind (.signedNumber 4) fun _ => .value _
  | float =>
      exact .bind (.number 4) fun _ => .value _
  | long =>
      exact .bind (.signedNumber 8) fun _ => .value _
  | double =>
      exact .bind (.number 8) fun _ => .value _
  | classRef | string | methodType | moduleRef | packageRef =>
      exact .bind (.number 2) fun _ => .value _
  | methodHandle =>
      exact .bind (.number 1) fun _ => .bind (.number 2) fun _ => .value _
  | fieldRef | methodRef | interfaceMethodRef | nameAndType | dynamic
  | invokeDynamic =>
      exact .bind (.number 2) fun _ => .bind (.number 2) fun _ => .value _

theorem readTagged_exacting
    (index : Nat) :
    Exacting (readTagged index) := by
  refine .bind (.number 1) fun number => ?_
  cases PoolTag.ofNumber? number with
  | none =>
      exact .refuse _
  | some tag =>
      exact readEntry_exacting index tag

theorem readSlots_exacting
    (count index : Nat) :
    Exacting (readSlots count index) := by
  fun_induction readSlots count index with
  | case1 index =>
      exact .value _
  | case2 index =>
      exact .bind (readTagged_exacting index) fun _ => .value _
  | case3 count index afterWide afterOther =>
      refine .bind (readTagged_exacting index) fun entry => .choice ?_ ?_
      · exact .bind afterWide fun _ => .value _
      · exact .bind afterOther fun _ => .value _

theorem readPool_exacting : Exacting readPool :=
  .bind (.number 2) fun _ => .bind (readSlots_exacting _ _) fun _ => .value _

theorem skipAttribute_exacting : Exacting skipAttribute :=
  .bind (.number 2) fun _ => .bind (.number 4) fun length =>
    .bind (.take length) fun _ => .value _

theorem skipField_exacting : Exacting skipField :=
  .bind (.take 6) fun _ => .bind skipAttribute_exacting.counted fun _ =>
    .value _

/-- The code of a method is read from bytes that were all taken before. -/
theorem readMethodAttribute_exacting
    (pool : Pool) :
    Exacting (readMethodAttribute pool) :=
  .bind (.number 2) fun _ => .bind (.lookup _) fun _ =>
    .bind (.number 4) fun length => .bind (.take length) fun _ =>
      .choice (.bind (.lookup _) fun _ => .value _) (.value _)

theorem readMethod_exacting
    (pool : Pool)
    (owner : Text) :
    Exacting (readMethod pool owner) :=
  .bind (.number 2) fun _ => .bind (.number 2) fun _ =>
    .bind (.lookup _) fun _ => .bind (.number 2) fun _ =>
      .bind (.lookup _) fun _ =>
        .bind (readMethodAttribute_exacting pool).counted fun _ => .value _

theorem read_exacting
    (source : Text) :
    Exacting (read source) := by
  refine .bind (.number 4) fun _ => .choice (.refused _ _) ?_
  refine .bind (.number 2) fun _ => .bind (.number 2) fun _ => ?_
  refine .bind readPool_exacting fun pool => .bind (.number 2) fun _ => ?_
  refine .bind (.number 2) fun _ => .bind (.lookup _) fun name => ?_
  refine .bind (.number 2) fun _ => .bind (.lookup _) fun _ => ?_
  refine .bind (Exacting.number 2).counted fun _ => ?_
  refine .bind skipField_exacting.counted fun _ => ?_
  exact .bind (readMethod_exacting pool name).counted fun _ => .value _

/--
Bytes that hold a class hold it in a part at their start.  The class is read from
this part whatever follows it, and on every shorter part reading fails, because
it needs bytes behind the end.
-/
theorem parse_reads_exactly
    {bytes : Bytes}
    {source : Text}
    {file : ClassFile}
    (parsed : parse bytes source = .ok file) :
    ∃ length,
      length ≤ bytes.length ∧
        (∀ trailing,
          parse (bytes.take length ++ trailing) source = .ok file) ∧
          ∀ {shorter},
            shorter < length →
            ∃ needed place,
              parse (bytes.take shorter) source =
                  .error (.truncated needed place) ∧
                place ≤ shorter ∧
                  shorter < place + needed :=
  (read_exacting source).run_eq_ok parsed

/-- A class with a long constant, a method with code and two bytes behind it. -/
def paddedBytes : Bytes :=
  [ 0xCA, 0xFE, 0xBA, 0xBE, 0, 0, 0, 52,
    -- Four constants, of which the long takes two of the five slots.
    0, 6, 1, 0, 4, 0x43, 0x6F, 0x64, 0x65, 7, 0, 1,
    5, 0, 0, 0, 0, 0, 0, 0, 9, 1, 0, 1, 0x66,
    0, 0x21, 0, 2, 0, 0, 0, 0, 0, 0,
    -- One method with the code of a return and no handlers.
    0, 1, 0, 9, 0, 5, 0, 5, 0, 1,
    0, 1, 0, 0, 0, 13, 0, 0, 0, 0, 0, 0, 0, 1, 0xB1, 0, 0, 0, 0,
    7, 7 ]

/-- The class that the bytes hold. -/
def paddedClass : ClassFile where
  name := "Code"
  superName := none
  access := 0x21
  major := 52
  minor := 0
  pool :=
    ⟨[none, some (.utf8 "Code"), some (.classRef 1), some (.long 9), none,
      some (.utf8 "f")]⟩
  methods := [⟨"Code", "f", "f", 9, some ⟨0, 0, [0xB1], []⟩⟩]
  source := "Code.class"

set_option maxRecDepth 8000 in
/-- All but the last two of the 74 bytes are needed. -/
theorem parse_reads_exactly_padded :
    parse paddedBytes "Code.class" = .ok paddedClass ∧
      (∀ trailing,
        parse (paddedBytes.take 72 ++ trailing) "Code.class" =
          .ok paddedClass) ∧
        ∀ {shorter},
          shorter < 72 →
          ∃ needed place,
            parse (paddedBytes.take shorter) "Code.class" =
              .error (.truncated needed place) := by
  have parsed : parse paddedBytes "Code.class" = .ok paddedClass := rfl
  have enough :
      parse (paddedBytes.take 72) "Code.class" = .ok paddedClass := rfl
  have tooFew :
      parse (paddedBytes.take 71) "Code.class" = .error (.truncated 13 59) :=
    rfl
  obtain ⟨length, _, reads, needs⟩ := parse_reads_exactly parsed
  have notLess : ¬length < 72 := by
    intro isLess
    have split :=
      List.take_append_drop length (paddedBytes.take 71)
    rw [List.take_take, Nat.min_eq_left (by omega)] at split
    have alsoRead := reads ((paddedBytes.take 71).drop length)
    rw [split, tooFew] at alsoRead
    cases alsoRead
  have notMore : ¬72 < length := by
    intro isMore
    obtain ⟨_, _, fails, _⟩ := needs isMore
    cases enough.symm.trans fails
  obtain rfl : length = 72 := by
    omega
  refine ⟨parsed, reads, ?_⟩
  intro shorter isShorter
  obtain ⟨needed, place, fails, _⟩ := needs isShorter
  exact ⟨needed, place, fails⟩

end ClassFile

end KeyAudit
