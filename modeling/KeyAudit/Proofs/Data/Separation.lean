import KeyAudit.Proofs.Data.Chain
import Mathlib.Data.List.Nodup

namespace KeyAudit

/-!
# Nests whose chains have different paths

If no key has a point in its text and no mapping has two keys with one text, the
texts of a chain's keys tell the chain.  Under a path that is not empty its path
tells it as well, and flattening loses nothing.

Under the empty path one case is left.  An entry with an empty text has the empty
path itself, so the entries below it are written like entries of the root.  They
are lost exactly if the root has a key with the same text.
-/

namespace Datum

/-- The texts of a mapping's own keys; a null key has none. -/
def keyTexts : Datum → List Text
  | .map entries =>
      (entries.filter fun entry => entry.1 ≠ .null).map fun entry =>
        entry.1.pathText
  | .knot _ body => body.keyTexts
  | _ => []

/-- A mapping's own keys have different texts without points. -/
structure OwnKeysApart (datum : Datum) : Prop where
  distinct : datum.keyTexts.Nodup
  pointFree : ∀ text ∈ datum.keyTexts, CodePoint.ofChar '.' ∉ text

instance (datum : Datum) : Decidable datum.OwnKeysApart :=
  decidable_of_iff
    (datum.keyTexts.Nodup ∧ ∀ text ∈ datum.keyTexts, CodePoint.ofChar '.' ∉ text)
    ⟨fun ⟨distinct, pointFree⟩ => ⟨distinct, pointFree⟩,
      fun ⟨distinct, pointFree⟩ => ⟨distinct, pointFree⟩⟩

/-- All mappings of a nest have different key texts without points. -/
structure KeysApart (root : Datum) : Prop where
  own : root.OwnKeysApart
  below : ∀ chain ∈ root.chains, chain.child.OwnKeysApart

instance (root : Datum) : Decidable root.KeysApart :=
  decidable_of_iff
    (root.OwnKeysApart ∧ ∀ chain ∈ root.chains, chain.child.OwnKeysApart)
    ⟨fun ⟨own, below⟩ => ⟨own, below⟩, fun ⟨own, below⟩ => ⟨own, below⟩⟩

/-- A key of the root has an empty text, and its mapping has a key text of the root. -/
def RepeatsUnderEmptyKey (root : Datum) : Prop :=
  ∃ chain ∈ root.chains,
    chain.texts = [[]] ∧ ∃ text ∈ chain.child.keyTexts, text ∈ root.keyTexts

instance (root : Datum) : Decidable root.RepeatsUnderEmptyKey :=
  inferInstanceAs (Decidable (∃ chain ∈ root.chains,
    chain.texts = [[]] ∧ ∃ text ∈ chain.child.keyTexts, text ∈ root.keyTexts))

/-! ## Texts of chains -/

/-- The mapping of an entry is a nest of its own. -/
theorem KeysApart.child
    {entries : List (Scalar × Datum)}
    (apart : (Datum.map entries).KeysApart)
    {key : Scalar}
    {child : Datum}
    (member : (key, child) ∈ entries)
    (notNull : key ≠ .null) :
    child.KeysApart := by
  obtain ⟨own, below⟩ :=
    forall_mem_entryChains.mp apart.below key child member notNull
  exact ⟨own, below⟩

/-- A knot has the keys of the collection that it is. -/
theorem KeysApart.body
    {number : Nat}
    {body : Datum}
    (apart : (Datum.knot number body).KeysApart) :
    body.KeysApart := by
  obtain ⟨⟨distinct, pointFree⟩, below⟩ := apart
  exact ⟨⟨distinct, pointFree⟩, below⟩

/-- Keys of one chain go on where keys of another one end. -/
theorem LeadsTo.trans
    {root middle stop : Datum}
    {first second : List Scalar}
    (before : root.LeadsTo first middle)
    (after : middle.LeadsTo second stop) :
    root.LeadsTo (first ++ second) stop := by
  induction before with
  | entry member notNull =>
      exact .further member notNull after
  | further member notNull later inductionHypothesis =>
      exact .further member notNull (inductionHypothesis after)
  | knot inside inductionHypothesis =>
      exact .knot (inductionHypothesis after)

/-- The first key of a longer chain leads to a child from which the others lead on. -/
theorem LeadsTo.split
    {root stop : Datum}
    {key next : Scalar}
    {keys : List Scalar}
    (leads : root.LeadsTo (key :: next :: keys) stop) :
    ∃ middle, root.LeadsTo [key] middle ∧ middle.LeadsTo (next :: keys) stop := by
  generalize shape : key :: next :: keys = all at leads
  induction leads with
  | entry member notNull =>
      simp at shape
  | further member notNull later _ =>
      obtain ⟨rfl, rfl⟩ := List.cons.inj shape
      exact ⟨_, .entry member notNull, later⟩
  | knot inside inductionHypothesis =>
      obtain ⟨middle, before, after⟩ := inductionHypothesis shape
      exact ⟨middle, .knot before, after⟩

/-- A chain begins with one of the own keys. -/
theorem LeadsTo.keys_eq_cons
    {root stop : Datum}
    {keys : List Scalar}
    (leads : root.LeadsTo keys stop) :
    ∃ key others, keys = key :: others ∧ key.pathText ∈ root.keyTexts := by
  have own
      {entries : List (Scalar × Datum)}
      {key : Scalar}
      {child : Datum}
      (member : (key, child) ∈ entries)
      (notNull : key ≠ .null) :
      key.pathText ∈ (Datum.map entries).keyTexts :=
    List.mem_map.mpr
      ⟨_, List.mem_filter.mpr ⟨member, decide_eq_true notNull⟩, rfl⟩
  induction leads with
  | entry member notNull =>
      exact ⟨_, _, rfl, own member notNull⟩
  | further member notNull later _ =>
      exact ⟨_, _, rfl, own member notNull⟩
  | knot inside inductionHypothesis =>
      exact inductionHypothesis

/-- Every own key leads to a child. -/
theorem exists_leadsTo_of_mem_keyTexts
    {root : Datum}
    {text : Text}
    (own : text ∈ root.keyTexts) :
    ∃ key child, root.LeadsTo [key] child ∧ key.pathText = text := by
  induction root using nest_induction with
  | map entries _ =>
      obtain ⟨⟨key, child⟩, kept, isText⟩ := List.mem_map.mp own
      obtain ⟨member, notNull⟩ := List.mem_filter.mp kept
      exact ⟨key, child, .entry member (of_decide_eq_true notNull), isText⟩
  | knot number body inductionHypothesis =>
      obtain ⟨key, child, leads, isText⟩ := inductionHypothesis own
      exact ⟨key, child, .knot leads, isText⟩
  | _ =>
      exact (List.not_mem_nil own).elim

/-- The texts of a chain begin with an own key text. -/
theorem texts_eq_cons
    {root : Datum}
    {chain : KeyChain}
    (listed : chain ∈ root.chains) :
    ∃ text others, chain.texts = text :: others ∧ text ∈ root.keyTexts := by
  obtain ⟨key, others, isFirst, own⟩ := (mem_chains_iff.mp listed).keys_eq_cons
  refine ⟨key.pathText, others.map Scalar.pathText, ?_, own⟩
  rw [KeyChain.texts, isFirst, List.map_cons]

/-- No text of a chain has a point. -/
theorem KeysApart.pointFree
    {root : Datum}
    (apart : root.KeysApart)
    {chain : KeyChain}
    (listed : chain ∈ root.chains) :
    ∀ text ∈ chain.texts, CodePoint.ofChar '.' ∉ text := by
  induction root using nest_induction generalizing chain with
  | map entries inductionHypothesis =>
      obtain ⟨first, others, shape, own⟩ := texts_eq_cons listed
      have firstFree := apart.own.pointFree first own
      obtain ⟨key, child, member, notNull, rfl | ⟨later, inChild, rfl⟩⟩ :=
        mem_entryChains.mp listed
      · rw [shape]
        obtain ⟨rfl, rfl⟩ := List.cons.inj shape
        exact List.forall_mem_singleton.mpr firstFree
      · rw [shape]
        obtain ⟨rfl, rfl⟩ := List.cons.inj shape
        exact List.forall_mem_cons.mpr
          ⟨firstFree,
            inductionHypothesis _ member (apart.child member notNull) inChild⟩
  | knot number body inductionHypothesis =>
      exact inductionHypothesis apart.body listed
  | _ =>
      exact (List.not_mem_nil listed).elim

/-- The chains that begin with one key have different texts if those below it have. -/
theorem texts_nodup_under
    (key : Scalar)
    {child : Datum}
    (below : (child.chains.map KeyChain.texts).Nodup) :
    ((⟨[key], child⟩ :: child.chains.map (KeyChain.under key)).map
      KeyChain.texts).Nodup := by
  have longer :
      (child.chains.map (KeyChain.under key)).map KeyChain.texts =
        (child.chains.map KeyChain.texts).map (key.pathText :: ·) := by
    rw [List.map_map, List.map_map]
    rfl
  rw [List.map_cons, longer, List.nodup_cons]
  constructor
  · intro ownBelow
    obtain ⟨texts, listed, isOwn⟩ := List.mem_map.mp ownBelow
    obtain ⟨chain, inChild, rfl⟩ := List.mem_map.mp listed
    obtain ⟨text, others, shape, _⟩ := texts_eq_cons inChild
    rw [shape] at isOwn
    cases (List.cons.inj isOwn).2
  · exact List.pairwise_map.mpr
      (below.imp fun different same => different (List.cons.inj same).2)

/-- The chains of entries with different key texts have different texts. -/
theorem entryTexts_nodup
    {entries : List (Scalar × Datum)}
    (distinct : (Datum.map entries).keyTexts.Nodup)
    (children :
      ∀ key child,
        (key, child) ∈ entries →
        key ≠ .null →
        (child.chains.map KeyChain.texts).Nodup) :
    ((entryChains entries).map KeyChain.texts).Nodup := by
  induction entries with
  | nil =>
      exact List.nodup_nil
  | cons entry rest inductionHypothesis =>
      obtain ⟨key, child⟩ := entry
      have restChildren
          (key : Scalar)
          (child : Datum)
          (inRest : (key, child) ∈ rest) :=
        children key child (List.mem_cons_of_mem _ inRest)
      unfold entryChains
      by_cases isNull : key = .null
      · rw [if_pos isNull]
        refine inductionHypothesis ?_ restChildren
        simpa [keyTexts, isNull] using distinct
      · have ownTexts :
            (Datum.map ((key, child) :: rest)).keyTexts =
              key.pathText :: (Datum.map rest).keyTexts := by
          simp [keyTexts, isNull]
        rw [ownTexts, List.nodup_cons] at distinct
        obtain ⟨notInRest, restDistinct⟩ := distinct
        rw [if_neg isNull, List.map_append, List.nodup_append]
        refine
          ⟨texts_nodup_under key (children key child List.mem_cons_self isNull),
            inductionHypothesis restDistinct restChildren, ?_⟩
        -- the first texts of the two parts are different
        intro texts inFirst others inRest same
        have isKey : texts.head? = some key.pathText := by
          obtain ⟨chain, listed, rfl⟩ := List.mem_map.mp inFirst
          rcases List.mem_cons.mp listed with rfl | isLonger
          · rfl
          · obtain ⟨later, _, rfl⟩ := List.mem_map.mp isLonger
            rfl
        obtain ⟨chain, listed, rfl⟩ := List.mem_map.mp inRest
        have inChains : chain ∈ (Datum.map rest).chains := listed
        obtain ⟨text, _, shape, own⟩ := texts_eq_cons inChains
        rw [same, shape] at isKey
        cases isKey
        exact notInRest own

/-- The texts of a chain's keys tell the chain. -/
theorem KeysApart.texts_nodup
    {root : Datum}
    (apart : root.KeysApart) :
    (root.chains.map KeyChain.texts).Nodup := by
  induction root using nest_induction with
  | map entries inductionHypothesis =>
      exact entryTexts_nodup apart.own.distinct
        fun _ _ member notNull =>
          inductionHypothesis _ member (apart.child member notNull)
  | knot number body inductionHypothesis =>
      exact inductionHypothesis apart.body
  | _ =>
      exact List.nodup_nil

end Datum

/-! ## Paths that tell the texts -/

namespace Text

variable {first second : List Text}

/-- Texts without points can be told from their join. -/
theorem eq_of_joinWith_eq
    (firstFree : ∀ text ∈ first, CodePoint.ofChar '.' ∉ text)
    (secondFree : ∀ text ∈ second, CodePoint.ofChar '.' ∉ text)
    (someFirst : first ≠ [])
    (someSecond : second ≠ [])
    (same : joinWith "." first = joinWith "." second) :
    first = second :=
  calc
    first = (joinWith "." first).splitOn (CodePoint.ofChar '.') :=
      (List.splitOn_intercalate _ firstFree someFirst).symm
    _ = (joinWith "." second).splitOn (CodePoint.ofChar '.') := by
      rw [same]
    _ = second :=
      List.splitOn_intercalate _ secondFree someSecond

/-- A path is empty if all its texts are. -/
theorem dotted_eq_nil
    {texts : List Text} :
    dotted texts = [] ↔ texts.dropWhile List.isEmpty = [] := by
  induction texts with
  | nil =>
      simp [dotted, joinWith]
  | cons text others inductionHypothesis =>
      cases text with
      | nil =>
          exact inductionHypothesis
      | cons point rest =>
          cases others <;> simp [dotted, joinWith, List.intercalate]

/-- Texts without points can be told from their path but for empty ones at the beginning. -/
theorem dropWhile_eq_of_dotted_eq
    (firstFree : ∀ text ∈ first, CodePoint.ofChar '.' ∉ text)
    (secondFree : ∀ text ∈ second, CodePoint.ofChar '.' ∉ text)
    (same : dotted first = dotted second) :
    first.dropWhile List.isEmpty = second.dropWhile List.isEmpty := by
  by_cases allEmpty : first.dropWhile List.isEmpty = []
  · have noPath := dotted_eq_nil.mpr allEmpty
    rw [same, dotted_eq_nil] at noPath
    rw [allEmpty, noPath]
  · have someSecond : second.dropWhile List.isEmpty ≠ [] := by
      rwa [Ne, ← dotted_eq_nil, ← same, dotted_eq_nil]
    refine eq_of_joinWith_eq ?_ ?_ allEmpty someSecond same
    · intro text member
      exact firstFree text ((List.dropWhile_sublist _).subset member)
    · intro text member
      exact secondFree text ((List.dropWhile_sublist _).subset member)

end Text

/-- Under a path that is not empty, no text of a chain is left out. -/
theorem KeyChain.pathFrom_of_ne_nil
    {start : Text}
    (someStart : start ≠ [])
    {chain : KeyChain}
    (someTexts : chain.texts ≠ []) :
    chain.pathFrom start =
      start ++ "." ++ Text.joinWith "." chain.texts := by
  cases start with
  | nil =>
      exact (someStart rfl).elim
  | cons point rest =>
      exact List.intercalate_cons_of_ne_nil someTexts

namespace Datum

variable {root : Datum}

/-- The texts of a chain, from those that are left without empty ones at the beginning. -/
def restoreTexts (root : Datum) : List Text → List Text
  | [] => [[]]
  | text :: others =>
      if text ∈ root.keyTexts then text :: others else [] :: text :: others

/-- A key text of the root under an empty one is repeated. -/
theorem repeatsUnderEmptyKey_of_texts
    {chain : KeyChain}
    (listed : chain ∈ root.chains)
    {text : Text}
    {others : List Text}
    (shape : chain.texts = [] :: text :: others)
    (own : text ∈ root.keyTexts) :
    root.RepeatsUnderEmptyKey := by
  obtain ⟨key, keys, isKeys, isEmpty, isRest⟩ := List.map_eq_cons_iff.mp shape
  obtain ⟨next, later, rfl, isText, _⟩ := List.map_eq_cons_iff.mp isRest
  have leads := mem_chains_iff.mp listed
  rw [isKeys] at leads
  obtain ⟨middle, before, after⟩ := leads.split
  obtain ⟨_, _, isNext, inMiddle⟩ := after.keys_eq_cons
  cases isNext
  refine ⟨⟨[key], middle⟩, before.mem_chains, ?_, text, ?_, own⟩
  · rw [KeyChain.texts, List.map_singleton, isEmpty]
  · rwa [isText] at inMiddle

/-- Unless a text is repeated, the texts of a chain can be told from what is left of them. -/
theorem texts_eq_restoreTexts
    (noRepeat : ¬root.RepeatsUnderEmptyKey)
    {chain : KeyChain}
    (listed : chain ∈ root.chains) :
    chain.texts =
      root.restoreTexts (chain.texts.dropWhile List.isEmpty) := by
  obtain ⟨text, others, shape, own⟩ := texts_eq_cons listed
  rw [shape]
  cases text with
  | cons point rest =>
      exact (if_pos own).symm
  | nil =>
      cases others with
      | nil =>
          rfl
      | cons next later =>
          have nextIsNew : next ∉ root.keyTexts := fun ownNext =>
            noRepeat (repeatsUnderEmptyKey_of_texts listed shape ownNext)
          cases next with
          | nil =>
              exact (nextIsNew own).elim
          | cons point rest =>
              exact (if_neg nextIsNew).symm

/-- Chains have different paths if their paths tell their texts. -/
theorem KeysApart.paths_nodup
    (apart : root.KeysApart)
    {start : Text}
    (telling :
      ∀ first ∈ root.chains, ∀ second ∈ root.chains,
        first.pathFrom start = second.pathFrom start →
        first.texts = second.texts) :
    (root.chains.map (KeyChain.pathFrom start)).Nodup := by
  have different := List.pairwise_map.mp apart.texts_nodup
  refine List.pairwise_map.mpr (different.imp_of_mem ?_)
  intro first second inFirst inSecond differentTexts samePath
  exact differentTexts (telling first inFirst second inSecond samePath)

/-- Under a path that is not empty all chains have different paths. -/
theorem KeysApart.paths_nodup_of_ne_nil
    (apart : root.KeysApart)
    {start : Text}
    (someStart : start ≠ []) :
    (root.chains.map (KeyChain.pathFrom start)).Nodup := by
  apply apart.paths_nodup
  intro first inFirst second inSecond same
  have someTexts
      {chain : KeyChain}
      (listed : chain ∈ root.chains) :
      chain.texts ≠ [] := by
    obtain ⟨text, others, shape, _⟩ := texts_eq_cons listed
    rw [shape]
    exact List.cons_ne_nil text others
  rw [KeyChain.pathFrom_of_ne_nil someStart (someTexts inFirst),
    KeyChain.pathFrom_of_ne_nil someStart (someTexts inSecond)] at same
  exact Text.eq_of_joinWith_eq
    (apart.pointFree inFirst) (apart.pointFree inSecond)
    (someTexts inFirst) (someTexts inSecond)
    (List.append_cancel_left same)

/-- Under the empty path all chains have different paths unless a text is repeated. -/
theorem KeysApart.paths_nodup_iff
    (apart : root.KeysApart) :
    (root.chains.map (KeyChain.pathFrom [])).Nodup ↔
      ¬root.RepeatsUnderEmptyKey := by
  constructor
  · rintro different ⟨chain, listed, isEmpty, text, inChild, own⟩
    obtain ⟨key, stop, leads, rfl⟩ := exists_leadsTo_of_mem_keyTexts own
    obtain ⟨next, child, leadsOn, sameText⟩ :=
      exists_leadsTo_of_mem_keyTexts inChild
    have longer := ((mem_chains_iff.mp listed).trans leadsOn).mem_chains
    have longerTexts :
        KeyChain.texts ⟨chain.keys ++ [next], child⟩ = [[], key.pathText] := by
      rw [KeyChain.texts, List.map_append, List.map_singleton, sameText]
      exact congrArg (· ++ [key.pathText]) isEmpty
    -- the empty text is left out, so both chains have the text of the key as path
    have samePath :
        KeyChain.pathFrom [] ⟨[key], stop⟩ =
          KeyChain.pathFrom [] ⟨chain.keys ++ [next], child⟩ := by
      rw [KeyChain.pathFrom, KeyChain.pathFrom, longerTexts]
      rfl
    have sameChain :=
      List.inj_on_of_nodup_map different leads.mem_chains longer samePath
    rw [← sameChain] at longerTexts
    cases (List.cons.inj longerTexts).2
  · intro noRepeat
    apply apart.paths_nodup
    intro first inFirst second inSecond same
    have sameRest :=
      Text.dropWhile_eq_of_dotted_eq
        (apart.pointFree inFirst) (apart.pointFree inSecond) same
    rw [texts_eq_restoreTexts noRepeat inFirst,
      texts_eq_restoreTexts noRepeat inSecond, sameRest]

/-- Flattening keeps every chain's entry exactly if all have different paths. -/
theorem flatten_eq_map_iff
    (start : Text)
    (root : Datum) :
    root.flatten start = root.chains.map (KeyChain.entryFrom start) ↔
      (root.chains.map (KeyChain.pathFrom start)).Nodup := by
  rw [flatten_eq_ofPairs, Entries.ofPairs_eq_self, List.map_map]
  rfl

/--
If keys have no points in their texts and no mapping has two keys with one text,
flattening under a path has one entry for each chain, with its child.  Without a
path it has so exactly if no mapping under an empty key text repeats a key text
of the root.
-/
theorem flatten_keeps_every_chain_iff
    (root : Datum)
    (apart : root.KeysApart) :
    ((root.chains.map (KeyChain.pathFrom [])).Nodup ↔
        ¬root.RepeatsUnderEmptyKey) ∧
      (root.flatten [] = root.chains.map (KeyChain.entryFrom []) ↔
        ¬root.RepeatsUnderEmptyKey) ∧
      ∀ start,
        start ≠ [] →
        (root.chains.map (KeyChain.pathFrom start)).Nodup ∧
          root.flatten start = root.chains.map (KeyChain.entryFrom start) := by
  refine ⟨apart.paths_nodup_iff, ?_, fun start someStart => ?_⟩
  · rw [flatten_eq_map_iff]
    exact apart.paths_nodup_iff
  · have different := apart.paths_nodup_of_ne_nil someStart
    exact ⟨different, (flatten_eq_map_iff start root).mpr different⟩

/-- A nest with empty key texts that repeats none of the root's. -/
def emptyKeysApart : Datum :=
  .map
    [(.text "", .map [(.text "c", .text "x")]),
      (.null, .text "passed over"),
      (.bool true, .map [(.text "", .text "y"), (.text "c", .text "z")])]

theorem flatten_keeps_every_chain_emptyKeys :
    emptyKeysApart.KeysApart ∧
      emptyKeysApart.flatten [] =
        emptyKeysApart.chains.map (KeyChain.entryFrom []) ∧
      (emptyKeysApart.flatten []).map Prod.fst =
        ["", "c", "true", "true.", "true.c"].map Text.ofString ∧
      emptyKeysApart.flatten "m" =
        emptyKeysApart.chains.map (KeyChain.entryFrom "m") := by
  have apart : emptyKeysApart.KeysApart := by decide
  obtain ⟨_, kept, keptUnder⟩ :=
    flatten_keeps_every_chain_iff emptyKeysApart apart
  exact ⟨apart, kept.mpr (by decide), by decide, (keptUnder "m" (by decide)).2⟩

/-- A nest whose root repeats the key text under its empty one. -/
def repeatedUnderEmpty : Datum :=
  .map
    [(.text "", .map [(.text "a", .text "inner")]),
      (.text "a", .text "outer")]

/-- Three chains have different texts, but the entry of the second one is lost. -/
theorem flatten_loses_repeatedUnderEmpty :
    repeatedUnderEmpty.KeysApart ∧
      repeatedUnderEmpty.chains.map KeyChain.texts =
        [[""], ["", "a"], ["a"]].map (List.map Text.ofString) ∧
      ¬(repeatedUnderEmpty.chains.map (KeyChain.pathFrom [])).Nodup ∧
      repeatedUnderEmpty.flatten [] =
        [(Text.ofString "", .map [(.text "a", .text "inner")]),
          (Text.ofString "a", .text "outer")] := by
  refine ⟨by decide, by decide, by decide, rfl⟩

end Datum

end KeyAudit
