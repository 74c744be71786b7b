import KeyAudit.Proofs.Class.Lookup
import Mathlib.Logic.Relation

namespace KeyAudit

/-!
# Resolving the indices of a constant pool

A lookup starts at an index and follows the references of the entries that it
finds.  The index may be any integer, and the references may lead anywhere: back to
where they come from, to a slot that cannot be used or past the last one.  Either
the index stands for a value and the lookup gives this value, or the lookup fails.
Then it names an index that the given one leads to, and what it says about the slot
there is so.
-/

open Outcome

/-- The indices that an entry refers to. -/
def PoolEntry.references : PoolEntry → List Nat
  | .utf8 _ | .integer _ | .float _ | .long _ | .double _ => []
  | .classRef name | .moduleRef name | .packageRef name => [name]
  | .string text => [text]
  | .methodType descriptor => [descriptor]
  | .methodHandle _ reference => [reference]
  | .nameAndType name descriptor => [name, descriptor]
  | .fieldRef owner member | .methodRef owner member
  | .interfaceMethodRef owner member => [owner, member]
  | .dynamic _ member | .invokeDynamic _ member => [member]

namespace Pool

/-- The slot at an index is there and has no entry. -/
def Unusable
    (pool : Pool)
    (index : Nat) : Prop :=
  pool.slots[index]? = some none

/-- The entry at an index refers to another index. -/
def Refers
    (pool : Pool)
    (index next : Int) : Prop :=
  ∃ entry reference,
    pool.Holds index.toNat entry ∧
      reference ∈ entry.references ∧ next = (reference : Nat)

/-- What a fault says about the slot at an index is so. -/
inductive Amiss (pool : Pool) (index : Int) : ClassFault → Prop where
  | outOfRange
      (outside : index ≤ 0 ∨ pool.size ≤ index) :
      Amiss pool index (.outOfRange index)
  | unusable
      (positive : 0 < index)
      (empty : pool.Unusable index.toNat) :
      Amiss pool index (.unusable index)
  | unexpectedTag
      {entry : PoolEntry}
      {expected : List PoolTag}
      (holds : pool.Holds index.toNat entry)
      (differs : entry.tag ∉ expected) :
      Amiss pool index (.unexpectedTag index entry.tag expected)
  | notLoadable
      {entry : PoolEntry}
      (holds : pool.Holds index.toNat entry)
      (differs : ∀ constant : Loadable, constant.tag ≠ entry.tag) :
      Amiss pool index (.notLoadable index entry.tag)

/-- A fault is so of an index that a given one leads to. -/
def Explains
    (pool : Pool)
    (index : Int)
    (fault : ClassFault) : Prop :=
  ∃ place,
    Relation.ReflTransGen pool.Refers index place ∧ pool.Amiss place fault

variable {pool : Pool}
variable {index : Int}
variable {fault : ClassFault}

theorem Amiss.explains
    (amiss : pool.Amiss index fault) :
    pool.Explains index fault :=
  ⟨index, .refl, amiss⟩

/-- What explains a failure at a reference explains it where the reference stands. -/
theorem Explains.via
    {entry : PoolEntry}
    {reference : Nat}
    (explains : pool.Explains reference fault)
    (holds : pool.Holds index.toNat entry)
    (refers : reference ∈ entry.references) :
    pool.Explains index fault := by
  obtain ⟨place, leads, amiss⟩ := explains
  exact ⟨place, leads.head ⟨entry, reference, holds, refers, rfl⟩, amiss⟩

/-- An index has an entry, or the fault tells what is wrong with the slot there. -/
theorem entry_cases
    (pool : Pool)
    (index : Int) :
    (∃ entry,
        pool.entry index = .ok entry ∧ pool.Holds index.toNat entry) ∨
      ∃ fault,
        pool.entry index = .error fault ∧ pool.Amiss index fault := by
  unfold entry
  split
  · rename_i notPositive
    exact .inr ⟨_, rfl, .outOfRange (.inl notPositive)⟩
  · rename_i positive
    split
    · rename_i beyond
      have past := List.getElem?_eq_none_iff.mp beyond
      exact .inr ⟨_, rfl, .outOfRange (.inr (by unfold size; omega))⟩
    · rename_i empty
      exact .inr ⟨_, rfl, .unusable (by omega) empty⟩
    · rename_i entry present
      exact .inl ⟨entry, rfl, by omega, present⟩

/-- A lookup starts with the entry at its index. -/
theorem explained_bind
    {Value : Type}
    {next : PoolEntry → Except ClassFault Value}
    (later :
      ∀ {entry},
        pool.Holds index.toNat entry →
        FailsOnly (pool.Explains index) (next entry)) :
    FailsOnly (pool.Explains index) (pool.entry index >>= next) := by
  rcases pool.entry_cases index with
    ⟨entry, found, holds⟩ | ⟨fault, failed, amiss⟩
  · rw [found]
    exact later holds
  · rw [failed]
    exact .fault amiss.explains

/-- A lookup goes on with a reference of the entry that it found. -/
theorem explained_via
    {Value : Type}
    {result : Except ClassFault Value}
    {entry : PoolEntry}
    {reference : Nat}
    (explained : FailsOnly (pool.Explains reference) result)
    (holds : pool.Holds index.toNat entry)
    (refers : reference ∈ entry.references) :
    FailsOnly (pool.Explains index) result :=
  explained.mono fun explains => explains.via holds refers

/-- A lookup ends at an entry of a kind that it does not expect. -/
theorem explained_unexpected
    {Value : Type}
    {entry : PoolEntry}
    {expected : List PoolTag}
    (holds : pool.Holds index.toNat entry)
    (differs : entry.tag ∉ expected) :
    FailsOnly (pool.Explains index)
      (throw (.unexpectedTag index entry.tag expected) :
        Except ClassFault Value) :=
  .fault (Amiss.unexpectedTag holds differs).explains

section Lookups

variable (pool : Pool)

theorem text_explained
    (index : Int) :
    FailsOnly (pool.Explains index) (pool.text index) := by
  refine explained_bind fun {entry} holds => ?_
  cases entry with
  | utf8 text =>
      exact .value text
  | _ =>
      exact explained_unexpected holds nofun

theorem className_explained
    (index : Int) :
    FailsOnly (pool.Explains index) (pool.className index) := by
  refine explained_bind fun {entry} holds => ?_
  cases entry with
  | classRef name =>
      exact explained_via (pool.text_explained name) holds (by simp [PoolEntry.references])
  | _ =>
      exact explained_unexpected holds nofun

theorem nameAndType_explained
    (index : Int) :
    FailsOnly (pool.Explains index) (pool.nameAndType index) := by
  refine explained_bind fun {entry} holds => ?_
  cases entry with
  | nameAndType name descriptor =>
      have nameExplained :=
        explained_via (pool.text_explained name) holds
          (by simp [PoolEntry.references])
      have descriptorExplained :=
        explained_via (pool.text_explained descriptor) holds
          (by simp [PoolEntry.references])
      exact nameExplained.bind fun _ =>
        descriptorExplained.bind fun _ => .value _
  | _ =>
      exact explained_unexpected holds nofun

/-- The owner and the name of a member are looked up by references of one entry. -/
theorem memberOf_explained
    {index : Int}
    {entry : PoolEntry}
    {owner member : Nat}
    (holds : pool.Holds index.toNat entry)
    (references : entry.references = [owner, member]) :
    FailsOnly (pool.Explains index) (pool.memberOf owner member) := by
  have typeExplained :=
    explained_via (pool.nameAndType_explained member) holds
      (by simp [references])
  have ownerExplained :=
    explained_via (pool.className_explained owner) holds
      (by simp [references])
  exact typeExplained.bind fun _ => ownerExplained.bind fun _ => .value _

theorem member_explained
    (index : Int) :
    FailsOnly (pool.Explains index) (pool.member index) := by
  refine explained_bind fun {entry} holds => ?_
  cases entry with
  | fieldRef | methodRef | interfaceMethodRef =>
      exact pool.memberOf_explained holds rfl
  | _ =>
      exact explained_unexpected holds nofun

theorem dynamicOf_explained
    {index : Int}
    {entry : PoolEntry}
    {member : Nat}
    (holds : pool.Holds index.toNat entry)
    (references : entry.references = [member])
    (bootstrap : Nat) :
    FailsOnly (pool.Explains index) (pool.dynamicOf bootstrap member) := by
  have typeExplained :=
    explained_via (pool.nameAndType_explained member) holds
      (by simp [references])
  exact typeExplained.bind fun _ => .value _

theorem dynamicMember_explained
    (index : Int) :
    FailsOnly (pool.Explains index) (pool.dynamicMember index) := by
  refine explained_bind fun {entry} holds => ?_
  cases entry with
  | invokeDynamic bootstrap | dynamic bootstrap =>
      exact pool.dynamicOf_explained holds rfl bootstrap
  | _ =>
      exact explained_unexpected holds nofun

theorem loadable_explained
    (index : Int) :
    FailsOnly (pool.Explains index) (pool.loadable index) := by
  refine explained_bind fun {entry} holds => ?_
  cases entry with
  | string reference | classRef reference | methodType reference =>
      have textExplained :=
        explained_via (pool.text_explained reference) holds
          (by simp [PoolEntry.references])
      exact textExplained.bind fun _ => .value _
  | dynamic bootstrap =>
      exact (pool.dynamicOf_explained holds rfl bootstrap).bind fun _ =>
        .value _
  | integer | float | long | double | methodHandle =>
      exact .value _
  | _ =>
      refine .fault (Amiss.notLoadable holds ?_).explains
      intro constant
      cases constant <;> nofun

end Lookups

section Settled

variable {Value : Type}

/--
What comes of a lookup at an index: the only value that the index stands for, or a
fault that tells why it stands for none.  Index zero and negative ones have the place
zero, which stands for nothing.
-/
inductive Settles
    (pool : Pool)
    (index : Int)
    (Has : Nat → Value → Prop) : Except ClassFault Value → Prop where
  | found
      {value : Value}
      (has : Has index.toNat value)
      (only : ∀ {other}, Has index.toNat other → other = value) :
      Settles pool index Has (.ok value)
  | refused
      {fault : ClassFault}
      (absent : ∀ {value}, ¬Has index.toNat value)
      (explains : pool.Explains index fault) :
      Settles pool index Has (.error fault)

theorem entry_bind_of_nonpos
    {next : PoolEntry → Except ClassFault Value}
    {index : Int}
    (notPositive : index ≤ 0) :
    (pool.entry index >>= next) = .error (.outOfRange index) := by
  rw [entry, if_pos notPositive]
  rfl

variable {lookup : Int → Except ClassFault Value}
variable {Has : Nat → Value → Prop}

/-- A lookup that is right at every place is right at every integer. -/
theorem eq_ok_iff_toNat
    (agrees :
      ∀ {place : Nat} {value}, lookup place = .ok value ↔ Has place value)
    (outside :
      ∀ {index}, index ≤ 0 → lookup index = .error (.outOfRange index))
    {value : Value} :
    lookup index = .ok value ↔ Has index.toNat value := by
  rw [← agrees]
  by_cases positive : 0 < index
  · rw [Int.toNat_of_nonneg (by omega)]
  · have zero : index.toNat = 0 := by
      omega
    rw [zero, outside (by omega), outside (by simp)]
    exact iff_of_false nofun nofun

theorem settles_of_agrees
    (agrees :
      ∀ {place : Nat} {value}, lookup place = .ok value ↔ Has place value)
    (outside :
      ∀ {index}, index ≤ 0 → lookup index = .error (.outOfRange index))
    (explained : FailsOnly (pool.Explains index) (lookup index)) :
    pool.Settles index Has (lookup index) := by
  have answers : ∀ {value}, lookup index = .ok value ↔ Has index.toNat value :=
    eq_ok_iff_toNat agrees outside
  cases outcome : lookup index with
  | ok value =>
      refine .found (answers.mp outcome) fun has => ?_
      exact Except.ok.inj ((answers.mpr has).symm.trans outcome)
  | error fault =>
      refine .refused (fun has => ?_) (explained fault outcome)
      cases outcome.symm.trans (answers.mpr has)

end Settled

/-- Each lookup at an index settles what the index stands for. -/
structure Resolves
    (pool : Pool)
    (index : Int) : Prop where
  text : pool.Settles index pool.HasText (pool.text index)
  className : pool.Settles index pool.HasClass (pool.className index)
  nameAndType :
    pool.Settles index
      (fun place pair => pool.HasNameAndType place pair.1 pair.2)
      (pool.nameAndType index)
  member : pool.Settles index pool.HasMember (pool.member index)
  dynamicMember :
    pool.Settles index pool.HasDynamicMember (pool.dynamicMember index)
  loadable : pool.Settles index pool.HasConstant (pool.loadable index)

theorem resolves_everywhere
    (pool : Pool)
    (index : Int) :
    pool.Resolves index where
  text :=
    settles_of_agrees text_eq_ok entry_bind_of_nonpos
      (pool.text_explained index)
  className :=
    settles_of_agrees className_eq_ok entry_bind_of_nonpos
      (pool.className_explained index)
  nameAndType :=
    settles_of_agrees nameAndType_eq_ok entry_bind_of_nonpos
      (pool.nameAndType_explained index)
  member :=
    settles_of_agrees member_eq_ok entry_bind_of_nonpos
      (pool.member_explained index)
  dynamicMember :=
    settles_of_agrees dynamicMember_eq_ok entry_bind_of_nonpos
      (pool.dynamicMember_explained index)
  loadable :=
    settles_of_agrees loadable_eq_ok entry_bind_of_nonpos
      (pool.loadable_explained index)

end Pool

end KeyAudit
