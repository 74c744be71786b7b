import KeyAudit.Data.Entries
import Mathlib.Data.List.Induction

namespace KeyAudit

/-!
# Entries that are put one after the other

Entries that come from pairs have the names of the pairs, each once and in the
order of their first appearance.  The data of a name is that of the last pair
with this name.
-/

namespace Entries

variable {name : Text}
variable {value : Datum}

/-- Put pairs one after the other. -/
def putAll (found : Entries) (pairs : List (Text × Datum)) : Entries :=
  pairs.foldl (fun entries pair => put pair.1 pair.2 entries) found

theorem putAll_append
    (found : Entries)
    (first second : List (Text × Datum)) :
    putAll found (first ++ second) = putAll (putAll found first) second :=
  List.foldl_append

theorem ofPairs_append_singleton
    (pairs : List (Text × Datum))
    (pair : Text × Datum) :
    ofPairs (pairs ++ [pair]) = put pair.1 pair.2 (ofPairs pairs) :=
  putAll_append [] pairs [pair]

/-- A name that is there keeps its place. -/
theorem names_put_of_mem
    {entries : Entries}
    (present : name ∈ entries.map Prod.fst) :
    (put name value entries).map Prod.fst = entries.map Prod.fst := by
  induction entries with
  | nil =>
      cases present
  | cons first rest inductionHypothesis =>
      unfold put
      by_cases isFirst : first.1 = name
      · rw [if_pos isFirst, List.map_cons, List.map_cons, isFirst]
      · have inRest := (List.mem_cons.mp present).resolve_left (Ne.symm isFirst)
        rw [if_neg isFirst, List.map_cons, List.map_cons,
          inductionHypothesis inRest]

/-- A new name comes last. -/
theorem put_of_not_mem
    {entries : Entries}
    (isNew : name ∉ entries.map Prod.fst) :
    put name value entries = entries ++ [(name, value)] := by
  induction entries with
  | nil =>
      rfl
  | cons first rest inductionHypothesis =>
      rw [List.map_cons, List.mem_cons, not_or] at isNew
      unfold put
      rw [if_neg (Ne.symm isNew.1), inductionHypothesis isNew.2]
      rfl

/-- After a put the name has the new data, and other names have what they had. -/
theorem mem_put
    {entries : Entries}
    (once : (entries.map Prod.fst).Nodup)
    {other : Text}
    {datum : Datum} :
    (other, datum) ∈ put name value entries ↔
      if other = name then datum = value else (other, datum) ∈ entries := by
  induction entries with
  | nil =>
      simp [put]
  | cons first rest inductionHypothesis =>
      obtain ⟨notInRest, restOnce⟩ := List.nodup_cons.mp once
      have absent
          (isOther : other = first.1) :
          (other, datum) ∉ rest := by
        intro inRest
        exact notInRest (isOther ▸ List.mem_map_of_mem inRest)
      unfold put
      by_cases isFirst : first.1 = name
      · rw [if_pos isFirst]
        grind
      · rw [if_neg isFirst, List.mem_cons, inductionHypothesis restOnce]
        grind

/-- Each name of the pairs is there once. -/
theorem names_once
    (pairs : List (Text × Datum)) :
    ((ofPairs pairs).map Prod.fst).Nodup := by
  induction pairs using List.reverseRecOn with
  | nil =>
      exact List.nodup_nil
  | append_singleton pairs pair inductionHypothesis =>
      rw [ofPairs_append_singleton]
      by_cases present : pair.1 ∈ (ofPairs pairs).map Prod.fst
      · rwa [names_put_of_mem present]
      · rw [put_of_not_mem present, List.map_append, List.nodup_append]
        exact ⟨inductionHypothesis, by simp, by grind⟩

/-- The names are those of the pairs in the order of their first appearance. -/
theorem names_ofPairs
    (pairs : List (Text × Datum)) :
    (ofPairs pairs).map Prod.fst = (pairs.map Prod.fst).eraseDups := by
  induction pairs using List.reverseRecOn with
  | nil =>
      rfl
  | append_singleton pairs pair inductionHypothesis =>
      rw [ofPairs_append_singleton, List.map_append, List.eraseDups_append,
        List.map_singleton, List.removeAll, ← inductionHypothesis]
      have present_iff :
          pair.1 ∈ (ofPairs pairs).map Prod.fst ↔ pair.1 ∈ pairs.map Prod.fst := by
        rw [inductionHypothesis, List.mem_eraseDups]
      by_cases present : pair.1 ∈ (ofPairs pairs).map Prod.fst
      · rw [names_put_of_mem present]
        simp [present_iff.mp present]
      · rw [put_of_not_mem present, List.map_append]
        simp [mt present_iff.mpr present, List.eraseDups_cons]

/-- The last pair with a name is the pair behind it or the last one before that. -/
private theorem last_append_singleton
    {pairs : List (Text × Datum)}
    {pair : Text × Datum} :
    (∃ before after,
      pairs ++ [pair] = before ++ (name, value) :: after ∧
        ∀ later ∈ after, later.1 ≠ name) ↔
      pair = (name, value) ∨
        pair.1 ≠ name ∧
          ∃ before after,
            pairs = before ++ (name, value) :: after ∧
              ∀ later ∈ after, later.1 ≠ name := by
  constructor
  · rintro ⟨before, after, shape, isLast⟩
    rcases List.eq_nil_or_concat after with rfl | ⟨between, final, rfl⟩
    · exact Or.inl (List.singleton_inj.mp (List.append_inj' shape rfl).2)
    · rw [List.concat_eq_append] at shape isLast
      rw [← List.cons_append, ← List.append_assoc] at shape
      obtain ⟨isBefore, isFinal⟩ := List.append_inj' shape rfl
      obtain rfl := List.singleton_inj.mp isFinal
      refine Or.inr ⟨isLast pair (by simp), before, between, isBefore, ?_⟩
      exact fun later member => isLast later (List.mem_append_left _ member)
  · rintro (rfl | ⟨isOther, before, after, rfl, isLast⟩)
    · exact ⟨pairs, [], rfl, by simp⟩
    · refine ⟨before, after ++ [pair], by simp, ?_⟩
      intro later member
      rcases List.mem_append.mp member with earlier | isFinal
      · exact isLast later earlier
      · obtain rfl := List.mem_singleton.mp isFinal
        exact isOther

/-- The data of a name is that of the last pair with this name. -/
theorem mem_ofPairs
    {pairs : List (Text × Datum)} :
    (name, value) ∈ ofPairs pairs ↔
      ∃ before after,
        pairs = before ++ (name, value) :: after ∧
          ∀ later ∈ after, later.1 ≠ name := by
  induction pairs using List.reverseRecOn with
  | nil =>
      simp [ofPairs]
  | append_singleton pairs pair inductionHypothesis =>
      rw [ofPairs_append_singleton, mem_put (names_once pairs),
        last_append_singleton, inductionHypothesis]
      grind

/-- No pair is lost exactly if all have different names. -/
theorem ofPairs_eq_self
    {pairs : List (Text × Datum)} :
    ofPairs pairs = pairs ↔ (pairs.map Prod.fst).Nodup := by
  constructor
  · intro same
    have once := names_once pairs
    rwa [same] at once
  · intro once
    induction pairs using List.reverseRecOn with
    | nil =>
        rfl
    | append_singleton pairs pair inductionHypothesis =>
        rw [List.map_append, List.nodup_append] at once
        obtain ⟨before, _, apart⟩ := once
        rw [ofPairs_append_singleton, inductionHypothesis before]
        apply put_of_not_mem
        intro member
        exact apart _ member _ (by simp) rfl

/-- A name of texts has a text among the entries. -/
theorem mem_textNames
    {entries : Entries}
    {key : Text} :
    key ∈ entries.textNames ↔
      ∃ value, (key, Datum.text value) ∈ entries := by
  unfold textNames
  rw [List.mem_map]
  constructor
  · rintro ⟨⟨name, datum⟩, member, rfl⟩
    obtain ⟨member, isText⟩ := List.mem_filter.mp member
    obtain ⟨value, same⟩ := Option.isSome_iff_exists.mp isText
    refine ⟨value, ?_⟩
    unfold Datum.text? at same
    split at same
    · cases same
      exact member
    · cases same
  · rintro ⟨value, member⟩
    exact ⟨_, List.mem_filter.mpr ⟨member, rfl⟩, rfl⟩

end Entries

end KeyAudit
