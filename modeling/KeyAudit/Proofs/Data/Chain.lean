import KeyAudit.Proofs.Data.Entries

namespace KeyAudit

/-!
# Chains of keys

A chain is a list of keys, none of them null, that leads from a nest of mappings
down to a child.  Flattening writes the path of every chain with its child, a
mapping's own entry before those below it.  So each path is there once, in the
place of its first chain and with the child of its last one.
-/

/-- Keys on the way down a nest of mappings and the child at its end. -/
structure KeyChain where
  keys : List Scalar
  child : Datum

/-- Key texts with points between them; empty texts at the beginning are left out. -/
def Text.dotted (texts : List Text) : Text :=
  joinWith "." (texts.dropWhile List.isEmpty)

namespace KeyChain

/-- The chain that begins one key earlier. -/
def under (key : Scalar) (chain : KeyChain) : KeyChain :=
  ⟨key :: chain.keys, chain.child⟩

/-- The texts of the keys. -/
def texts (chain : KeyChain) : List Text :=
  chain.keys.map Scalar.pathText

/-- The path of a chain under a path. -/
def pathFrom (start : Text) (chain : KeyChain) : Text :=
  Text.dotted (start :: chain.texts)

/-- The path of a chain with its child. -/
def entryFrom (start : Text) (chain : KeyChain) : Text × Datum :=
  (chain.pathFrom start, chain.child)

end KeyChain

namespace Datum

mutual

/-- The chains of a nest of mappings; each comes before those that go on from it. -/
def chains : Datum → List KeyChain
  | .map entries => entryChains entries
  | .knot _ body => body.chains
  | _ => []

/-- The chains that begin with the key of an entry. -/
def entryChains : List (Scalar × Datum) → List KeyChain
  | [] => []
  | (key, child) :: rest =>
      if key = .null then
        entryChains rest
      else
        ⟨[key], child⟩ :: child.chains.map (KeyChain.under key) ++ entryChains rest

end

/-- Keys that are not null lead from one mapping to the next and at last to a child. -/
inductive LeadsTo : Datum → List Scalar → Datum → Prop where
  | entry
      {entries : List (Scalar × Datum)}
      {key : Scalar}
      {child : Datum}
      (member : (key, child) ∈ entries)
      (notNull : key ≠ .null) :
      LeadsTo (.map entries) [key] child
  | further
      {entries : List (Scalar × Datum)}
      {key : Scalar}
      {child stop : Datum}
      {keys : List Scalar}
      (member : (key, child) ∈ entries)
      (notNull : key ≠ .null)
      (later : LeadsTo child keys stop) :
      LeadsTo (.map entries) (key :: keys) stop
  | knot
      {number : Nat}
      {body stop : Datum}
      {keys : List Scalar}
      (inside : LeadsTo body keys stop) :
      LeadsTo (.knot number body) keys stop

/-- Induction down a nest of mappings; what lists and pairs hold is not looked at. -/
theorem nest_induction
    {Holds : Datum → Prop}
    (map :
      ∀ entries : List (Scalar × Datum),
        (∀ entry ∈ entries, Holds entry.2) →
        Holds (.map entries))
    (knot : ∀ number body, Holds body → Holds (.knot number body))
    (scalar : ∀ value, Holds (.scalar value))
    (list : ∀ items, Holds (.list items))
    (set : ∀ items, Holds (.set items))
    (pair : ∀ first second, Holds (.pair first second))
    (again : ∀ number kind, Holds (.again number kind))
    (datum : Datum) :
    Holds datum :=
  @Datum.rec Holds
    (fun _ => True)
    (fun entries => ∀ entry ∈ entries, Holds entry.2)
    (fun entry => Holds entry.2)
    scalar
    (fun items _ => list items)
    map
    set
    (fun first second _ _ => pair first second)
    knot
    again
    trivial
    (fun _ _ _ _ => trivial)
    (fun _ member => (List.not_mem_nil member).elim)
    (fun _ _ first rest => List.forall_mem_cons.mpr ⟨first, rest⟩)
    (fun _ _ child => child)
    datum

/-- A chain begins with the key of an entry and ends there or goes on below it. -/
theorem mem_entryChains
    {entries : List (Scalar × Datum)}
    {chain : KeyChain} :
    chain ∈ entryChains entries ↔
      ∃ key child,
        (key, child) ∈ entries ∧
          key ≠ .null ∧
            (chain = ⟨[key], child⟩ ∨
              ∃ later ∈ child.chains, chain = later.under key) := by
  induction entries with
  | nil =>
      simp [entryChains]
  | cons entry rest inductionHypothesis =>
      obtain ⟨key, child⟩ := entry
      unfold entryChains
      by_cases isNull : key = .null
      · rw [if_pos isNull, inductionHypothesis]
        grind
      · rw [if_neg isNull, List.mem_append, List.mem_cons, List.mem_map,
          inductionHypothesis]
        grind

/-- What holds of all chains holds of each entry's own chain and of those below it. -/
theorem forall_mem_entryChains
    {entries : List (Scalar × Datum)}
    {Holds : KeyChain → Prop} :
    (∀ chain ∈ entryChains entries, Holds chain) ↔
      ∀ key child,
        (key, child) ∈ entries →
        key ≠ .null →
        Holds ⟨[key], child⟩ ∧
          ∀ later ∈ child.chains, Holds (later.under key) := by
  constructor
  · intro all key child member notNull
    refine ⟨all _ ?_, fun later inChild => all _ ?_⟩
    · exact mem_entryChains.mpr ⟨key, child, member, notNull, Or.inl rfl⟩
    · exact mem_entryChains.mpr
        ⟨key, child, member, notNull, Or.inr ⟨later, inChild, rfl⟩⟩
  · intro each chain inChains
    obtain ⟨key, child, member, notNull, rfl | ⟨later, inChild, rfl⟩⟩ :=
      mem_entryChains.mp inChains
    · exact (each key child member notNull).1
    · exact (each key child member notNull).2 later inChild

/-- Keys that lead to a child are a chain. -/
theorem LeadsTo.mem_chains
    {root stop : Datum}
    {keys : List Scalar}
    (leads : root.LeadsTo keys stop) :
    ⟨keys, stop⟩ ∈ root.chains := by
  induction leads with
  | entry member notNull =>
      exact mem_entryChains.mpr ⟨_, _, member, notNull, Or.inl rfl⟩
  | further member notNull later inductionHypothesis =>
      exact mem_entryChains.mpr
        ⟨_, _, member, notNull, Or.inr ⟨_, inductionHypothesis, rfl⟩⟩
  | knot inside inductionHypothesis =>
      exact inductionHypothesis

/-- The chains of a nest are all keys that lead from it to a child. -/
theorem mem_chains_iff
    {root : Datum}
    {chain : KeyChain} :
    chain ∈ root.chains ↔ root.LeadsTo chain.keys chain.child := by
  refine ⟨fun member => ?_, LeadsTo.mem_chains⟩
  induction root using nest_induction generalizing chain with
  | map entries inductionHypothesis =>
      obtain ⟨key, child, inEntries, notNull, rfl | ⟨later, inChild, rfl⟩⟩ :=
        mem_entryChains.mp member
      · exact .entry inEntries notNull
      · exact .further inEntries notNull
          (inductionHypothesis _ inEntries inChild)
  | knot number body inductionHypothesis =>
      exact .knot (inductionHypothesis member)
  | _ =>
      exact (List.not_mem_nil member).elim

/-- The first two texts of a path can be joined before the others. -/
theorem dotted_subPath
    (start key : Text)
    (texts : List Text) :
    Text.dotted (subPath start key :: texts) =
      Text.dotted (start :: key :: texts) := by
  unfold subPath
  cases start with
  | nil =>
      rfl
  | cons point rest =>
      -- neither list begins with an empty text, so nothing is left out
      change
        List.intercalate _ (_ :: texts) = List.intercalate _ (_ :: _ :: texts)
      cases texts with
      | nil => simp [List.intercalate]
      | cons first others => simp [List.intercalate]

end Datum

namespace KeyChain

/-- The path of a chain of one key is what flattening writes for the key. -/
theorem entryFrom_single
    (start : Text)
    (key : Scalar)
    (child : Datum) :
    entryFrom start ⟨[key], child⟩ =
      (Datum.subPath start key.pathText, child) := by
  have path := Datum.dotted_subPath start key.pathText []
  unfold entryFrom pathFrom texts
  rw [List.map_singleton, ← path]
  cases Datum.subPath start key.pathText <;> simp [Text.dotted, Text.joinWith]

/-- A chain that begins one key earlier has the path of the chain under this key. -/
theorem entryFrom_under
    (start : Text)
    (key : Scalar)
    (chain : KeyChain) :
    (chain.under key).entryFrom start =
      chain.entryFrom (Datum.subPath start key.pathText) := by
  unfold entryFrom pathFrom texts
  rw [Datum.dotted_subPath]
  rfl

end KeyChain

namespace Datum

/-- Flattening entries puts the entry of every chain in order. -/
theorem flattenEntries_eq_putAll
    {entries : List (Scalar × Datum)}
    (children :
      ∀ entry ∈ entries, ∀ start found,
        entry.2.flattenInto start found =
          Entries.putAll found (entry.2.chains.map (KeyChain.entryFrom start)))
    (start : Text)
    (found : Entries) :
    flattenEntries start found entries =
      Entries.putAll found
        ((entryChains entries).map (KeyChain.entryFrom start)) := by
  induction entries generalizing found with
  | nil =>
      rfl
  | cons entry rest inductionHypothesis =>
      obtain ⟨key, child⟩ := entry
      obtain ⟨first, others⟩ := List.forall_mem_cons.mp children
      unfold flattenEntries entryChains
      by_cases isNull : key = .null
      · rw [if_pos isNull, if_pos isNull, inductionHypothesis others]
      · have below :
            (child.chains.map (KeyChain.under key)).map
                (KeyChain.entryFrom start) =
              child.chains.map
                (KeyChain.entryFrom (subPath start key.pathText)) := by
          rw [List.map_map]
          exact List.map_congr_left fun chain _ =>
            KeyChain.entryFrom_under start key chain
        rw [if_neg isNull, if_neg isNull, inductionHypothesis others, first,
          List.map_append, List.map_cons, below, Entries.putAll_append,
          KeyChain.entryFrom_single]
        rfl

/-- Flattening puts the entry of every chain in order. -/
theorem flattenInto_eq_putAll
    (start : Text)
    (found : Entries)
    (datum : Datum) :
    datum.flattenInto start found =
      Entries.putAll found (datum.chains.map (KeyChain.entryFrom start)) := by
  induction datum using nest_induction generalizing start found with
  | map entries inductionHypothesis =>
      exact flattenEntries_eq_putAll inductionHypothesis start found
  | knot number body inductionHypothesis =>
      exact inductionHypothesis start found
  | _ =>
      rfl

/-- The entries of a nest come from the entries of its chains. -/
theorem flatten_eq_ofPairs
    (start : Text)
    (root : Datum) :
    root.flatten start =
      Entries.ofPairs (root.chains.map (KeyChain.entryFrom start)) :=
  flattenInto_eq_putAll start [] root

/-- A chain has a path and no later chain has it. -/
def LastChain
    (root : Datum)
    (start path : Text)
    (chain : KeyChain) : Prop :=
  ∃ before after,
    root.chains = before ++ chain :: after ∧
      chain.pathFrom start = path ∧
        ∀ later ∈ after, later.pathFrom start ≠ path

/-- The paths of a nest are those of its chains in the order of their first appearance. -/
theorem names_flatten
    (start : Text)
    (root : Datum) :
    (root.flatten start).map Prod.fst =
      (root.chains.map (KeyChain.pathFrom start)).eraseDups := by
  rw [flatten_eq_ofPairs, Entries.names_ofPairs, List.map_map]
  rfl

/-- The data at a path is the child of the last chain with this path. -/
theorem mem_flatten
    {start path : Text}
    {root child : Datum} :
    (path, child) ∈ root.flatten start ↔
      ∃ chain, root.LastChain start path chain ∧ chain.child = child := by
  rw [flatten_eq_ofPairs, Entries.mem_ofPairs]
  constructor
  · rintro ⟨before, after, shape, isLast⟩
    obtain ⟨chainsBefore, others, split, rfl, fromOthers⟩ :=
      List.map_eq_append_iff.mp shape
    obtain ⟨chain, chainsAfter, rfl, isEntry, rfl⟩ :=
      List.map_eq_cons_iff.mp fromOthers
    obtain ⟨hasPath, hasChild⟩ := Prod.mk.inj isEntry
    refine ⟨chain, ⟨chainsBefore, chainsAfter, split, hasPath, ?_⟩, hasChild⟩
    intro later member
    exact isLast _ (List.mem_map_of_mem member)
  · rintro ⟨chain, ⟨before, after, split, rfl, isLast⟩, rfl⟩
    refine
      ⟨before.map (KeyChain.entryFrom start),
        after.map (KeyChain.entryFrom start), ?_, ?_⟩
    · rw [split, List.map_append, List.map_cons]
      rfl
    · intro later member
      obtain ⟨laterChain, inAfter, rfl⟩ := List.mem_map.mp member
      exact isLast laterChain inAfter

-- The path of the first chain is also that of the last one, whose child it gets.
example :
    (Datum.map
        [(.text "a.b", .text "first"),
          (.text "a", .map [(.text "b", .text "last")])]).flatten [] =
      [(Text.ofString "a.b", .text "last"),
        (Text.ofString "a", .map [(.text "b", .text "last")])] :=
  rfl

/-- Whether data stands for a mapping that is around it. -/
def repeatsMap : Datum → Bool
  | .again _ .map => true
  | .knot _ body => body.repeatsMap
  | _ => false

/-- No chain has a key that is too long, and none comes back to a mapping above it. -/
structure Writable (root : Datum) : Prop where
  short : ∀ chain ∈ root.chains, ∀ key ∈ chain.keys, key.isLongInteger = false
  root_ends : root.repeatsMap = false
  child_ends : ∀ chain ∈ root.chains, chain.child.repeatsMap = false

/-- Data without chains need only not stand for a mapping itself. -/
theorem writable_of_chains_eq_nil
    {root : Datum}
    (noChains : root.chains = []) :
    root.Writable ↔ root.repeatsMap = false := by
  refine ⟨Writable.root_ends, fun ends => ?_⟩
  refine { short := ?_, root_ends := ends, child_ends := ?_ }
  · simp [noChains]
  · simp [noChains]

/-- The paths of a mapping can be written if those of its entries can be. -/
theorem writable_map
    {entries : List (Scalar × Datum)} :
    (Datum.map entries).Writable ↔
      ∀ key child,
        (key, child) ∈ entries →
        key ≠ .null →
        key.isLongInteger = false ∧ child.Writable := by
  constructor
  · rintro ⟨short, -, childEnds⟩ key child member notNull
    obtain ⟨ownShort, shortBelow⟩ :=
      forall_mem_entryChains.mp short key child member notNull
    obtain ⟨ownEnds, endsBelow⟩ :=
      forall_mem_entryChains.mp childEnds key child member notNull
    refine
      ⟨ownShort key List.mem_cons_self,
        { short := fun later inChild =>
            (List.forall_mem_cons.mp (shortBelow later inChild)).2
          root_ends := ownEnds
          child_ends := endsBelow }⟩
  · intro each
    refine
      { short := forall_mem_entryChains.mpr fun key child member notNull => ?_
        root_ends := rfl
        child_ends := forall_mem_entryChains.mpr fun key child member notNull => ?_ }
    · obtain ⟨isShort, below⟩ := each key child member notNull
      exact
        ⟨List.forall_mem_singleton.mpr isShort, fun later inChild =>
          List.forall_mem_cons.mpr ⟨isShort, below.short later inChild⟩⟩
    · obtain ⟨_, below⟩ := each key child member notNull
      exact ⟨below.root_ends, below.child_ends⟩

/-- Entries have no fault if their keys are short and their children have none. -/
theorem entriesFault?_eq_none
    {entries : List (Scalar × Datum)} :
    entriesFault? entries = none ↔
      ∀ key child,
        (key, child) ∈ entries →
        key ≠ .null →
        key.isLongInteger = false ∧ child.flattenFault? = none := by
  induction entries with
  | nil =>
      simp [entriesFault?]
  | cons entry rest inductionHypothesis =>
      obtain ⟨key, child⟩ := entry
      unfold entriesFault?
      by_cases isNull : key = .null
      · rw [if_pos isNull, inductionHypothesis]
        grind
      · rw [if_neg isNull]
        by_cases isLong : key.isLongInteger
        · grind
        · rw [if_neg isLong, Option.orElse_eq_orElse, Option.orElse_eq_or,
            Option.or_eq_none_iff, inductionHypothesis]
          grind

/-- Flattening succeeds exactly if all paths can be written. -/
theorem flattenFault?_eq_none
    {root : Datum} :
    root.flattenFault? = none ↔ root.Writable := by
  induction root using nest_induction with
  | map entries inductionHypothesis =>
      rw [flattenFault?, entriesFault?_eq_none, writable_map]
      constructor
      · intro faultless key child member notNull
        obtain ⟨isShort, below⟩ := faultless key child member notNull
        exact ⟨isShort, (inductionHypothesis _ member).mp below⟩
      · intro writable key child member notNull
        obtain ⟨isShort, below⟩ := writable key child member notNull
        exact ⟨isShort, (inductionHypothesis _ member).mpr below⟩
  | knot number body inductionHypothesis =>
      rw [flattenFault?, inductionHypothesis]
      constructor
      · rintro ⟨short, root_ends, child_ends⟩
        exact ⟨short, root_ends, child_ends⟩
      · rintro ⟨short, root_ends, child_ends⟩
        exact ⟨short, root_ends, child_ends⟩
  | again number kind =>
      rw [writable_of_chains_eq_nil rfl]
      cases kind <;> simp [flattenFault?, repeatsMap]
  | _ =>
      rw [writable_of_chains_eq_nil rfl]
      simp [flattenFault?, repeatsMap]

end Datum

end KeyAudit
