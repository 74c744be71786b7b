import KeyAudit.Key.Document
import KeyAudit.Proofs.Data.Chain
import KeyAudit.Proofs.Text.Sorted

namespace KeyAudit

/-!
# What a key document declares

The entries of a key document are the paths of all chains of keys, each with the
child of the last chain that has this path.  A key is declared exactly if the
last chain with its path ends in a text.
-/

namespace KeyDocument

/-- A document is made of data whose paths can all be written. -/
theorem ofDatum_eq_ok
    {path : Text}
    {root : Datum}
    {document : KeyDocument} :
    ofDatum path root = .ok document ↔
      root.Writable ∧ document = ⟨path, root.flatten []⟩ := by
  rw [← Datum.flattenFault?_eq_none]
  unfold ofDatum
  cases root.flattenFault? with
  | none =>
      simp [eq_comm]
  | some fault =>
      simp

/-- A key is declared if its entry is a text. -/
theorem mem_declared
    {document : KeyDocument}
    {key : Text} :
    key ∈ document.declared ↔
      ∃ value, (key, Datum.text value) ∈ document.entries := by
  unfold declared
  rw [Text.mem_sortedDistinct, Entries.mem_textNames]

/--
The chains of a nest are all keys that lead to a child.  Flattening keeps their
paths, each once and in the order of their first appearance, with the child of
the last chain that has the path.  The nest is a document unless a path cannot
be written, and the document declares the paths whose last chain ends in a text.
-/
theorem last_chain_of_path_wins
    (path : Text)
    (root : Datum) :
    (∀ chain, chain ∈ root.chains ↔ root.LeadsTo chain.keys chain.child) ∧
      (∀ start,
        (root.flatten start).map Prod.fst =
            (root.chains.map (KeyChain.pathFrom start)).eraseDups ∧
          ∀ name child,
            (name, child) ∈ root.flatten start ↔
              ∃ chain, root.LastChain start name chain ∧ chain.child = child) ∧
      (∀ document,
        ofDatum path root = .ok document ↔
          root.Writable ∧ document = ⟨path, root.flatten []⟩) ∧
      ∀ key,
        key ∈ declared ⟨path, root.flatten []⟩ ↔
          ∃ chain text,
            root.LastChain [] key chain ∧ chain.child = .text text := by
  refine
    ⟨fun _ => Datum.mem_chains_iff,
      fun start => ⟨root.names_flatten start, fun _ _ => Datum.mem_flatten⟩,
      fun _ => ofDatum_eq_ok, fun key => ?_⟩
  rw [mem_declared]
  constructor
  · rintro ⟨text, member⟩
    obtain ⟨chain, isLast, endsInText⟩ := Datum.mem_flatten.mp member
    exact ⟨chain, text, isLast, endsInText⟩
  · rintro ⟨chain, text, isLast, endsInText⟩
    exact ⟨text, Datum.mem_flatten.mpr ⟨chain, isLast, endsInText⟩⟩

end KeyDocument

end KeyAudit
