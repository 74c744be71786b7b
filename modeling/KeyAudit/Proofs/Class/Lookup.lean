import KeyAudit.Class.Pool
import KeyAudit.Proofs.Outcome

namespace KeyAudit.Pool

/-!
# What an index of a constant pool stands for

An index stands for a text, a class, a member or a constant through the entries
that it leads to.  A lookup gives exactly what its index stands for.
-/

/-- The slot at an index can be used and has an entry. -/
def Holds
    (pool : Pool)
    (index : Nat)
    (entry : PoolEntry) : Prop :=
  0 < index ∧ pool.slots[index]? = some (some entry)

/-- An index leads to a text. -/
def HasText
    (pool : Pool)
    (index : Nat)
    (text : Text) : Prop :=
  pool.Holds index (.utf8 text)

/-- An index leads to a class with a name. -/
def HasClass
    (pool : Pool)
    (index : Nat)
    (name : Text) : Prop :=
  ∃ nameIndex,
    pool.Holds index (.classRef nameIndex) ∧ pool.HasText nameIndex name

/-- An index leads to a name and a descriptor. -/
def HasNameAndType
    (pool : Pool)
    (index : Nat)
    (name descriptor : Text) : Prop :=
  ∃ nameIndex descriptorIndex,
    pool.Holds index (.nameAndType nameIndex descriptorIndex) ∧
      pool.HasText nameIndex name ∧ pool.HasText descriptorIndex descriptor

/-- The entries for fields and for methods of classes and interfaces. -/
def memberEntries (owner nameAndType : Nat) : List PoolEntry :=
  [.fieldRef owner nameAndType, .methodRef owner nameAndType,
    .interfaceMethodRef owner nameAndType]

/-- An index leads to a field or a method. -/
def HasMember
    (pool : Pool)
    (index : Nat)
    (member : Member) : Prop :=
  ∃ owner nameAndType,
    (∃ entry ∈ memberEntries owner nameAndType, pool.Holds index entry) ∧
      pool.HasClass owner member.owner ∧
        pool.HasNameAndType nameAndType member.name member.descriptor

/-- The member that a bootstrap method provides under a name. -/
def bootstrapped (bootstrap : Nat) (name descriptor : Text) : Member :=
  ⟨"<bootstrap:" ++ Text.ofNat bootstrap ++ ">", name, descriptor⟩

/-- An index leads to a member that a bootstrap method provides. -/
def HasDynamicMember
    (pool : Pool)
    (index : Nat)
    (member : Member) : Prop :=
  ∃ bootstrap nameAndType name descriptor,
    (pool.Holds index (.invokeDynamic bootstrap nameAndType) ∨
        pool.Holds index (.dynamic bootstrap nameAndType)) ∧
      pool.HasNameAndType nameAndType name descriptor ∧
        member = bootstrapped bootstrap name descriptor

/-- An index leads to a constant that can be pushed. -/
inductive HasConstant (pool : Pool) (index : Nat) : Loadable → Prop where
  | string
      {textIndex : Nat}
      {text : Text}
      (holds : pool.Holds index (.string textIndex))
      (hasText : pool.HasText textIndex text) :
      HasConstant pool index (.string text)
  | integer
      {value : Int}
      (holds : pool.Holds index (.integer value)) :
      HasConstant pool index (.integer value)
  | float
      {bits : UInt32}
      (holds : pool.Holds index (.float bits)) :
      HasConstant pool index (.float (.ofSingleBits bits))
  | long
      {value : Int}
      (holds : pool.Holds index (.long value)) :
      HasConstant pool index (.long value)
  | double
      {bits : UInt64}
      (holds : pool.Holds index (.double bits)) :
      HasConstant pool index (.double (.ofBits bits))
  | classLiteral
      {name : Text}
      (hasClass : pool.HasClass index name) :
      HasConstant pool index (.classLiteral name)
  | methodType
      {descriptorIndex : Nat}
      {descriptor : Text}
      (holds : pool.Holds index (.methodType descriptorIndex))
      (hasText : pool.HasText descriptorIndex descriptor) :
      HasConstant pool index (.methodType descriptor)
  | methodHandle
      {kind reference : Nat}
      (holds : pool.Holds index (.methodHandle kind reference)) :
      HasConstant pool index (.methodHandle kind reference)
  | dynamic
      {bootstrap nameAndType : Nat}
      {name descriptor : Text}
      (holds : pool.Holds index (.dynamic bootstrap nameAndType))
      (typed : pool.HasNameAndType nameAndType name descriptor) :
      HasConstant pool index
        (.dynamic (bootstrapped bootstrap name descriptor))

variable {pool : Pool}
variable {index : Nat}

theorem entry_eq_ok
    {entry : PoolEntry} :
    pool.entry index = .ok entry ↔ pool.Holds index entry := by
  unfold Pool.entry Holds
  by_cases zero : index = 0
  · subst index
    simp
  · rw [if_neg (by omega), Int.toNat_natCast]
    have positive : 0 < index := Nat.pos_of_ne_zero zero
    cases pool.slots[index]? with
    | none =>
        simp
    | some slot =>
        cases slot <;> simp [positive]

theorem text_eq_ok
    {text : Text} :
    pool.text index = .ok text ↔ pool.HasText index text := by
  unfold Pool.text HasText
  rw [Outcome.bind_eq_ok]
  simp only [entry_eq_ok]
  constructor
  · rintro ⟨entry, holds, found⟩
    cases entry with
    | utf8 other =>
        cases found
        exact holds
    | _ =>
        cases found
  · intro holds
    exact ⟨_, holds, rfl⟩

theorem className_eq_ok
    {name : Text} :
    pool.className index = .ok name ↔ pool.HasClass index name := by
  unfold Pool.className HasClass
  rw [Outcome.bind_eq_ok]
  simp only [entry_eq_ok]
  constructor
  · rintro ⟨entry, holds, found⟩
    cases entry with
    | classRef nameIndex =>
        exact ⟨nameIndex, holds, text_eq_ok.mp found⟩
    | _ =>
        cases found
  · rintro ⟨nameIndex, holds, hasText⟩
    exact ⟨_, holds, text_eq_ok.mpr hasText⟩

theorem nameAndType_eq_ok
    {name descriptor : Text} :
    pool.nameAndType index = .ok (name, descriptor) ↔
      pool.HasNameAndType index name descriptor := by
  unfold Pool.nameAndType HasNameAndType
  rw [Outcome.bind_eq_ok]
  simp only [entry_eq_ok]
  constructor
  · rintro ⟨entry, holds, found⟩
    cases entry with
    | nameAndType nameIndex descriptorIndex =>
        obtain ⟨_, hasName, found⟩ := Outcome.bind_eq_ok.mp found
        obtain ⟨_, hasDescriptor, found⟩ := Outcome.bind_eq_ok.mp found
        cases found
        exact
          ⟨nameIndex, descriptorIndex, holds, text_eq_ok.mp hasName,
            text_eq_ok.mp hasDescriptor⟩
    | _ =>
        cases found
  · rintro ⟨nameIndex, descriptorIndex, holds, hasName, hasDescriptor⟩
    refine ⟨_, holds, ?_⟩
    simp only
    rw [text_eq_ok.mpr hasName, text_eq_ok.mpr hasDescriptor]
    rfl

theorem memberOf_eq_ok
    {owner nameAndType : Nat}
    {member : Member} :
    pool.memberOf owner nameAndType = .ok member ↔
      pool.HasClass owner member.owner ∧
        pool.HasNameAndType nameAndType member.name
          member.descriptor := by
  unfold Pool.memberOf
  rw [Outcome.bind_eq_ok]
  constructor
  · rintro ⟨⟨name, descriptor⟩, typed, found⟩
    obtain ⟨ownerName, hasOwner, found⟩ := Outcome.bind_eq_ok.mp found
    cases found
    exact ⟨className_eq_ok.mp hasOwner, nameAndType_eq_ok.mp typed⟩
  · rintro ⟨hasOwner, typed⟩
    refine ⟨_, nameAndType_eq_ok.mpr typed, ?_⟩
    simp only
    rw [className_eq_ok.mpr hasOwner]
    rfl

theorem member_eq_ok
    {member : Member} :
    pool.member index = .ok member ↔ pool.HasMember index member := by
  unfold Pool.member HasMember
  rw [Outcome.bind_eq_ok]
  simp only [entry_eq_ok]
  constructor
  · rintro ⟨entry, holds, found⟩
    cases entry with
    | fieldRef owner nameAndType =>
        exact
          ⟨owner, nameAndType, ⟨_, by simp [memberEntries], holds⟩,
            memberOf_eq_ok.mp found⟩
    | methodRef owner nameAndType =>
        exact
          ⟨owner, nameAndType, ⟨_, by simp [memberEntries], holds⟩,
            memberOf_eq_ok.mp found⟩
    | interfaceMethodRef owner nameAndType =>
        exact
          ⟨owner, nameAndType, ⟨_, by simp [memberEntries], holds⟩,
            memberOf_eq_ok.mp found⟩
    | _ =>
        cases found
  · rintro ⟨owner, nameAndType, ⟨entry, isMember, holds⟩, resolved⟩
    refine ⟨entry, holds, ?_⟩
    simp only [memberEntries, List.mem_cons, List.not_mem_nil, or_false]
      at isMember
    rcases isMember with rfl | rfl | rfl <;>
      exact memberOf_eq_ok.mpr resolved

theorem dynamicOf_eq_ok
    {bootstrap nameAndType : Nat}
    {member : Member} :
    pool.dynamicOf bootstrap nameAndType = .ok member ↔
      ∃ name descriptor,
        pool.HasNameAndType nameAndType name descriptor ∧
          member = bootstrapped bootstrap name descriptor := by
  unfold Pool.dynamicOf
  rw [Outcome.bind_eq_ok]
  constructor
  · rintro ⟨⟨name, descriptor⟩, typed, found⟩
    cases found
    exact ⟨name, descriptor, nameAndType_eq_ok.mp typed, rfl⟩
  · rintro ⟨name, descriptor, typed, rfl⟩
    exact ⟨_, nameAndType_eq_ok.mpr typed, rfl⟩

theorem dynamicMember_eq_ok
    {member : Member} :
    pool.dynamicMember index = .ok member ↔
      pool.HasDynamicMember index member := by
  unfold Pool.dynamicMember HasDynamicMember
  rw [Outcome.bind_eq_ok]
  simp only [entry_eq_ok]
  constructor
  · rintro ⟨entry, holds, found⟩
    cases entry with
    | invokeDynamic bootstrap nameAndType =>
        obtain ⟨name, descriptor, resolved⟩ := dynamicOf_eq_ok.mp found
        exact
          ⟨bootstrap, nameAndType, name, descriptor, .inl holds, resolved⟩
    | dynamic bootstrap nameAndType =>
        obtain ⟨name, descriptor, resolved⟩ := dynamicOf_eq_ok.mp found
        exact
          ⟨bootstrap, nameAndType, name, descriptor, .inr holds, resolved⟩
    | _ =>
        cases found
  · rintro ⟨bootstrap, nameAndType, name, descriptor, holds, resolved⟩
    have found := dynamicOf_eq_ok.mpr ⟨name, descriptor, resolved⟩
    rcases holds with holds | holds
    · exact ⟨_, holds, found⟩
    · exact ⟨_, holds, found⟩

theorem loadable_eq_ok
    {constant : Loadable} :
    pool.loadable index = .ok constant ↔
      pool.HasConstant index constant := by
  unfold Pool.loadable
  rw [Outcome.bind_eq_ok]
  simp only [entry_eq_ok]
  constructor
  · rintro ⟨entry, holds, found⟩
    cases entry with
    | string textIndex =>
        obtain ⟨text, hasText, found⟩ := Outcome.bind_eq_ok.mp found
        cases found
        exact .string holds (text_eq_ok.mp hasText)
    | classRef nameIndex =>
        obtain ⟨name, hasText, found⟩ := Outcome.bind_eq_ok.mp found
        cases found
        exact .classLiteral ⟨nameIndex, holds, text_eq_ok.mp hasText⟩
    | methodType descriptorIndex =>
        obtain ⟨descriptor, hasText, found⟩ :=
          Outcome.bind_eq_ok.mp found
        cases found
        exact .methodType holds (text_eq_ok.mp hasText)
    | dynamic bootstrap nameAndType =>
        obtain ⟨member, resolved, found⟩ := Outcome.bind_eq_ok.mp found
        cases found
        obtain ⟨name, descriptor, typed, rfl⟩ :=
          dynamicOf_eq_ok.mp resolved
        exact .dynamic holds typed
    | integer value =>
        cases found
        exact .integer holds
    | float bits =>
        cases found
        exact .float holds
    | long value =>
        cases found
        exact .long holds
    | double bits =>
        cases found
        exact .double holds
    | methodHandle kind reference =>
        cases found
        exact .methodHandle holds
    | _ =>
        cases found
  · intro hasConstant
    cases hasConstant with
    | string holds hasText =>
        refine ⟨_, holds, ?_⟩
        simp only
        rw [text_eq_ok.mpr hasText]
        rfl
    | classLiteral hasClass =>
        obtain ⟨nameIndex, holds, hasText⟩ := hasClass
        refine ⟨_, holds, ?_⟩
        simp only
        rw [text_eq_ok.mpr hasText]
        rfl
    | methodType holds hasText =>
        refine ⟨_, holds, ?_⟩
        simp only
        rw [text_eq_ok.mpr hasText]
        rfl
    | dynamic holds typed =>
        refine ⟨_, holds, ?_⟩
        simp only
        rw [dynamicOf_eq_ok.mpr ⟨_, _, typed, rfl⟩]
        rfl
    | integer holds =>
        exact ⟨_, holds, rfl⟩
    | float holds =>
        exact ⟨_, holds, rfl⟩
    | long holds =>
        exact ⟨_, holds, rfl⟩
    | double holds =>
        exact ⟨_, holds, rfl⟩
    | methodHandle holds =>
        exact ⟨_, holds, rfl⟩

end KeyAudit.Pool
