import KeyAudit.Class.File
import KeyAudit.Proofs.Class.Resolution
import Mathlib.Data.List.Chain

namespace KeyAudit

/-!
# The slots of a constant pool that was read

A class declares the number of slots of its pool.  Reading can be told as a loop that
starts with as many empty slots, puts each entry into the slot at its index and goes
on behind the one or two slots that the entry takes.  The loop ends at the declared
number, so it puts no entry behind the last slot, and a long or double in the last
slot takes only this one.  In the end just the first slot and those behind a long or
double are empty.
-/

namespace PoolTag

/-- The number of slots from an entry to the next one. -/
def slotCount : PoolTag → Nat
  | .long | .double => 2
  | _ => 1

theorem slotCount_pos
    (tag : PoolTag) :
    0 < tag.slotCount := by
  cases tag <;> decide

theorem slotCount_eq
    (tag : PoolTag) :
    tag.slotCount = if tag.isWide then 2 else 1 := by
  cases tag <;> rfl

theorem isWide_iff
    (tag : PoolTag) :
    tag.isWide ↔ tag = .long ∨ tag = .double := by
  cases tag <;> decide

end PoolTag

namespace Pool

section Layout

/-- The slot at an index has a long or double. -/
def HoldsWide
    (pool : Pool)
    (index : Nat) : Prop :=
  ∃ entry,
    pool.slots[index]? = some (some entry) ∧
      (entry.tag = .long ∨ entry.tag = .double)

/-- A pool has the slots that a declared number asks for. -/
structure LaidOut
    (pool : Pool)
    (count : Nat) : Prop where
  size : pool.size = max count 1
  first : pool.Unusable 0
  unusable_iff :
    ∀ {index},
      1 ≤ index →
      index < count →
      (pool.Unusable index ↔ pool.HoldsWide (index - 1))

/-- A slot is empty exactly if the one before has a wide entry. -/
def Follows (before slot : Option PoolEntry) : Prop :=
  slot = none ↔ ∃ entry ∈ before, entry.tag.isWide

theorem follows_narrow
    {before : Option PoolEntry}
    (narrow : ∀ entry ∈ before, ¬entry.tag.isWide)
    (entry : PoolEntry) :
    Follows before (some entry) := by
  refine iff_of_false nofun ?_
  rintro ⟨earlier, isBefore, wide⟩
  exact narrow earlier isBefore wide

theorem follows_wide
    {entry : PoolEntry}
    (wide : entry.tag.isWide) :
    Follows (some entry) none :=
  iff_of_true rfl ⟨entry, rfl, wide⟩

theorem laidOut_of_follow
    {count : Nat}
    {slots : List (Option PoolEntry)}
    (length : slots.length = count - 1)
    (follow : (none :: slots).IsChain Follows) :
    LaidOut ⟨none :: slots⟩ count where
  size := by
    simp only [size, List.length_cons, length]
    omega
  first := rfl
  unusable_iff := by
    intro index positive within
    obtain ⟨before, rfl⟩ := Nat.exists_eq_add_of_le' positive
    have inside : before + 1 < (none :: slots).length := by
      simp only [List.length_cons]
      omega
    have follows := List.isChain_iff_getElem.mp follow before inside
    simp only [Follows, Option.mem_def, PoolTag.isWide_iff] at follows
    simp only [Unusable, HoldsWide, Nat.add_sub_cancel]
    rw [List.getElem?_eq_getElem inside,
      List.getElem?_eq_getElem (Nat.lt_of_succ_lt inside)]
    simpa only [Option.some.injEq] using follows

end Layout

section Writing

/-- A pool with empty slots only; the first slot is always there. -/
def blank (count : Nat) : Pool :=
  ⟨List.replicate (max count 1) none⟩

theorem blank_succ
    (left : Nat) :
    blank (left + 1) = ⟨none :: List.replicate left none⟩ := by
  rw [blank, Nat.max_eq_left (by omega), List.replicate_succ]

/-- Put an entry into the slot at an index, if there is such a slot. -/
def put?
    (pool : Pool)
    (index : Nat)
    (entry : PoolEntry) : Option Pool :=
  if index < pool.size then
    some ⟨pool.slots.set index (some entry)⟩
  else
    none

theorem put?_append
    (done others : List (Option PoolEntry))
    (slot : Option PoolEntry)
    (entry : PoolEntry) :
    put? ⟨done ++ slot :: others⟩ done.length entry =
      some ⟨done ++ some entry :: others⟩ := by
  simp [put?, size]

end Writing

end Pool

namespace ClassFile

open Outcome Reading

section Filling

/--
Read entries into a pool from an index on, up to the declared number of slots.  The
result is nothing if there is no slot for an entry.
-/
def fill
    (count : Nat)
    (pool : Pool)
    (index : Nat) : Reading (Option Pool) :=
  if index < count then do
    let entry ← readTagged index
    match pool.put? index entry with
    | none => return none
    | some filled => fill count filled (index + entry.tag.slotCount)
  else
    return some pool
termination_by count - index
decreasing_by
  have := entry.tag.slotCount_pos
  omega

/-- Read a constant pool entry by entry into empty slots. -/
def fillPool : Reading (Option Pool) := do
  let count ← u2
  fill count (.blank count) 1

variable {count : Nat}

theorem fill_of_le
    {pool : Pool}
    {index : Nat}
    (ended : count ≤ index) :
    fill count pool index = return some pool := by
  rw [fill, if_neg (by omega)]

/-- A turn of the loop: the entry gets the slot behind those that are done. -/
theorem fill_turn
    {done : List (Option PoolEntry)}
    (within : done.length < count)
    (slot : Option PoolEntry)
    (others : List (Option PoolEntry)) :
    fill count ⟨done ++ slot :: others⟩ done.length =
      (do
        let entry ← readTagged done.length
        fill count ⟨done ++ some entry :: others⟩
          (done.length + entry.tag.slotCount)) := by
  rw [fill, if_pos within]
  simp only [Pool.put?_append]

/-- The loop finds a slot for each entry, and the slots are those that are read. -/
theorem fill_eq_readSlots
    (left index : Nat)
    (done : List (Option PoolEntry))
    (reached : done.length = index)
    (declared : index + left = count) :
    fill count ⟨done ++ List.replicate left none⟩ index = do
      let slots ← readSlots left index
      return some ⟨done ++ slots⟩ := by
  fun_induction readSlots left index generalizing done with
  | case1 index =>
      rw [fill_of_le (by omega)]
      simp
  | case2 index =>
      subst reached
      rw [List.replicate_succ, fill_turn (by omega)]
      simp only [bind_assoc, pure_bind]
      refine bind_congr fun entry => ?_
      -- One slot is left, so the loop ends here whether the entry is wide or not.
      have := entry.tag.slotCount_pos
      rw [fill_of_le (by omega)]
      rfl
  | case3 left index afterWide afterOther =>
      subst reached
      rw [List.replicate_succ, fill_turn (by omega), bind_assoc]
      refine bind_congr fun entry => ?_
      rw [entry.tag.slotCount_eq]
      split
      · -- The slot behind stays empty and counts as done.
        simpa [List.replicate_succ] using
          afterWide (done ++ [some entry, none]) (by simp) (by omega)
      · simpa using afterOther (done ++ [some entry]) (by simp) (by omega)

/-- There is a slot for each entry, also if reading fails later. -/
theorem fillPool_eq_readPool :
    fillPool = do
      let pool ← readPool
      return some pool := by
  unfold fillPool readPool
  rw [bind_assoc]
  refine bind_congr fun count => ?_
  rw [bind_assoc]
  simp only [pure_bind]
  cases count with
  | zero =>
      rw [fill_of_le (Nat.zero_le 1)]
      rfl
  | succ left =>
      rw [Pool.blank_succ]
      exact fill_eq_readSlots left 1 [none] rfl (Nat.add_comm 1 left)

end Filling

/--
Reading gives as many slots as are left.  They follow each other, and they follow any
slot that has no wide entry.
-/
theorem readSlots_follow
    {left index : Nat}
    {cursor after : Cursor}
    {slots : List (Option PoolEntry)}
    (read : readSlots left index cursor = .ok (slots, after)) :
    slots.length = left ∧
      ∀ {before : Option PoolEntry},
        (∀ entry ∈ before, ¬entry.tag.isWide) →
        (before :: slots).IsChain Pool.Follows := by
  fun_induction readSlots left index generalizing cursor slots with
  | case1 index =>
      cases read
      exact ⟨rfl, fun _ => .singleton _⟩
  | case2 index =>
      obtain ⟨entry, _, -, read⟩ := bindState_eq_ok.mp read
      cases read
      refine ⟨rfl, fun narrow => ?_⟩
      exact .cons_cons (Pool.follows_narrow narrow entry) (.singleton _)
  | case3 left index afterWide afterOther =>
      obtain ⟨entry, _, -, read⟩ := bindState_eq_ok.mp read
      split at read
      · rename_i wide
        obtain ⟨rest, _, readRest, read⟩ := bindState_eq_ok.mp read
        cases read
        obtain ⟨length, follow⟩ := afterWide readRest
        refine ⟨by simp [length], fun narrow => ?_⟩
        refine .cons_cons (Pool.follows_narrow narrow entry) ?_
        exact .cons_cons (Pool.follows_wide wide) (follow nofun)
      · rename_i notWide
        obtain ⟨rest, _, readRest, read⟩ := bindState_eq_ok.mp read
        cases read
        obtain ⟨length, follow⟩ := afterOther readRest
        refine ⟨by simp [length], fun narrow => ?_⟩
        refine .cons_cons (Pool.follows_narrow narrow entry) (follow ?_)
        rintro _ ⟨rfl⟩
        exact notWide

theorem laidOut_of_readPool
    {cursor after : Cursor}
    {pool : Pool}
    (read : readPool cursor = .ok (pool, after)) :
    ∃ count entries,
      u2 cursor = .ok (count, entries) ∧ pool.LaidOut count := by
  obtain ⟨count, entries, declared, read⟩ := bindState_eq_ok.mp read
  obtain ⟨slots, _, readAll, read⟩ := bindState_eq_ok.mp read
  cases read
  obtain ⟨length, follow⟩ := readSlots_follow readAll
  exact
    ⟨count, entries, declared,
      Pool.laidOut_of_follow length (follow nofun)⟩

/--
A pool that was read has the declared number of slots, of which just the first and
those behind a long or double are empty.  Each entry was put into a slot that there
is, and every lookup at any integer settles what the index stands for.
-/
theorem readPool_slots_exact
    {cursor after : Cursor}
    {pool : Pool}
    (read : readPool cursor = .ok (pool, after)) :
    ∃ count entries,
      u2 cursor = .ok (count, entries) ∧
        pool.LaidOut count ∧
          fillPool cursor = .ok (some pool, after) ∧
            ∀ index, pool.Resolves index := by
  obtain ⟨count, entries, declared, laidOut⟩ := laidOut_of_readPool read
  refine ⟨count, entries, declared, laidOut, ?_, pool.resolves_everywhere⟩
  rw [fillPool_eq_readPool, bindState_eq_ok]
  exact ⟨pool, after, read, rfl⟩

/-- Five slots with a class that refers to itself, a long, and a double in the last one. -/
def wideLastBytes : Cursor where
  rest :=
    [ 0, 5, 7, 0, 1, 5, 0, 0, 0, 0, 0, 0, 0, 9,
      6, 0x3F, 0xF0, 0, 0, 0, 0, 0, 0, 0x21 ]
  offset := 8

/-- The pool that the bytes hold. -/
def wideLastPool : Pool :=
  ⟨[none, some (.classRef 1), some (.long 9), none,
    some (.double 0x3FF0000000000000)]⟩

set_option maxRecDepth 2000 in
theorem readPool_slots_exact_wideLast :
    readPool wideLastBytes = .ok (wideLastPool, ⟨[0x21], 31⟩) ∧
      wideLastPool.LaidOut 5 ∧
        fillPool wideLastBytes = .ok (some wideLastPool, ⟨[0x21], 31⟩) ∧
          ∀ index, wideLastPool.Resolves index := by
  have read :
      readPool wideLastBytes = .ok (wideLastPool, ⟨[0x21], 31⟩) := rfl
  obtain ⟨count, entries, declared, laidOut, filled, resolves⟩ :=
    readPool_slots_exact read
  have five :
      u2 wideLastBytes = .ok (5, ⟨wideLastBytes.rest.drop 2, 10⟩) := rfl
  cases five.symm.trans declared
  exact ⟨read, laidOut, filled, resolves⟩

end ClassFile

end KeyAudit
