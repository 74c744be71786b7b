import KeyAudit.Command.Run
import KeyAudit.Proofs.Key.Document
import KeyAudit.Proofs.Key.Verdict
import KeyAudit.Proofs.Scan.Completion

namespace KeyAudit

/-!
# The outcome of an audit

An audit compares the keys that the key documents declare with those that the
classes use.  Its report, the failure that it ends in and the exit code of the
run say the same about them.
-/

section Documents

variable {tree : Tree}

namespace KeyDocument

/-- The text of the document at a path has a text at the path of a key. -/
def DeclaredAt
    (tree : Tree)
    (path : Path)
    (key : Text) : Prop :=
  ∃ bytes text root value,
    tree.readBytes path = .ok bytes ∧
      Tree.textOfBytes bytes = .ok text ∧
      Yaml.read text = .ok root ∧
      (key, Datum.text value) ∈ root.flatten []

theorem load_eq_ok
    {path : Path}
    {document : KeyDocument}
    (loads : load tree path = .ok document) :
    ∃ bytes text root,
      tree.readBytes path = .ok bytes ∧
        Tree.textOfBytes bytes = .ok text ∧
        Yaml.read text = .ok root ∧
        document.entries = root.flatten [] := by
  unfold load at loads
  cases reads : tree.readBytes path with
  | error fault =>
      rw [reads] at loads
      cases loads
  | ok bytes =>
      cases decodes : Tree.textOfBytes bytes with
      | error fault =>
          simp only [reads, decodes] at loads
          cases loads
      | ok text =>
          simp only [reads, decodes] at loads
          unfold parse at loads
          split at loads
          · rename_i root isRoot
            obtain ⟨_, rfl⟩ := ofDatum_eq_ok.mp loads
            exact ⟨bytes, text, root, rfl, decodes, isRoot, rfl⟩
          · cases loads
          · cases loads

theorem mem_declared_of_load
    {path : Path}
    {document : KeyDocument}
    (loads : load tree path = .ok document)
    {key : Text} :
    key ∈ document.declared ↔ DeclaredAt tree path key := by
  obtain ⟨bytes, text, root, reads, decodes, isRoot, entries⟩ :=
    load_eq_ok loads
  rw [mem_declared, entries]
  constructor
  · rintro ⟨value, member⟩
    exact ⟨bytes, text, root, value, reads, decodes, isRoot, member⟩
  · rintro ⟨otherBytes, otherText, otherRoot, value, otherReads, otherDecodes,
      isOtherRoot, member⟩
    rw [reads] at otherReads
    cases otherReads
    rw [decodes] at otherDecodes
    cases otherDecodes
    rw [isRoot] at isOtherRoot
    cases isOtherRoot
    exact ⟨value, member⟩

/-- What reading the documents at paths comes to. -/
def loaded (tree : Tree) (paths : List Path) :
    Except Trouble (List KeyDocument) := do
  (paths.findSome? fun path => (tree.obstacle? path).map Trouble.path).elim
    (.ok ()) .error
  if (paths.filter tree.isFile).isEmpty then
    .error (.failure noneFound)
  else
    (paths.filter tree.isFile).mapM (load tree)

theorem loadAll_gives
    (paths : List Path) :
    Logged.Gives (loadAll tree paths) (loaded tree paths) := by
  unfold loadAll loaded
  refine (Logged.Gives.loopUntil ?_ paths).bind ?_
  · intro path
    cases tree.obstacle? path with
    | some fault =>
        exact (Logged.Gives.fault _).stop _
    | none =>
        dsimp only
        split
        · exact (Logged.Gives.log _ _ _).andThen (.value _)
        · exact .value _
  · intro _ _
    dsimp only
    split
    · exact (Logged.Gives.fault _).stop _
    · nth_rewrite 2 [← bind_pure ((paths.filter tree.isFile).mapM (load tree))]
      refine (Logged.Gives.ofExcept _).bind ?_
      intro documents _
      refine (Logged.Gives.loop ?_ documents).andThen (.value documents)
      intro document
      exact (Logged.Gives.log _ _ _).andThen (.value _)

/-- The keys of the documents at paths are those that some file there declares. -/
theorem mem_declaredByAny_of_loaded
    {paths : List Path}
    {documents : List KeyDocument}
    (loads : loaded tree paths = .ok documents)
    {key : Text} :
    key ∈ declaredByAny documents ↔
      ∃ path ∈ paths,
        tree.isFile path = true ∧ DeclaredAt tree path key := by
  obtain ⟨_, _, loads⟩ := Outcome.bind_eq_ok.mp loads
  split at loads
  · cases loads
  · unfold declaredByAny
    rw [Text.mem_sortedDistinct, List.mem_flatMap]
    constructor
    · rintro ⟨document, member, isDeclared⟩
      obtain ⟨path, present, loadsPath⟩ :=
        (Outcome.mem_of_mapM loads).mp member
      obtain ⟨isPath, isFile⟩ := List.mem_filter.mp present
      exact ⟨path, isPath, isFile,
        (mem_declared_of_load loadsPath).mp isDeclared⟩
    · rintro ⟨path, isPath, isFile, isDeclared⟩
      have present := List.mem_filter.mpr ⟨isPath, isFile⟩
      obtain ⟨document, loadsPath⟩ := Outcome.ok_of_mapM loads present
      exact ⟨document, (Outcome.mem_of_mapM loads).mpr ⟨path, present, loadsPath⟩,
        (mem_declared_of_load loadsPath).mpr isDeclared⟩

end KeyDocument

end Documents

section Classes

variable {tree : Tree}

theorem ClassInput.atPath_steady
    (path : Path) :
    Logged.Steady (ClassInput.atPath tree path) := by
  unfold atPath
  cases tree.obstacle? path with
  | some fault =>
      exact .of_gives ((Logged.Gives.fault fault).stop _)
  | none =>
      dsimp only
      split
      · exact .of_gives ((Logged.Gives.ofExcept _).bind fun _ _ => .value _)
      · split
        · exact .of_gives (.value _)
        · split
          · split
            · exact .of_gives (.value _)
            · next fault _ =>
              cases fault.unreported? path with
              | some fault =>
                  exact .of_gives ((Logged.Gives.fault fault).stop _)
              | none =>
                  exact .of_gives ((Logged.Gives.log _ _ _).andThen (.value _))
          · exact .of_gives ((Logged.Gives.log _ _ _).andThen (.value _))

theorem ClassInput.atPaths_steady
    (paths : List Path) :
    Logged.Steady (ClassInput.atPaths tree paths) := by
  induction paths with
  | nil =>
      exact .of_gives (.value _)
  | cons path paths inductionHypothesis =>
      unfold atPaths
      refine (atPath_steady path).bind fun found => ?_
      refine inductionHypothesis.bind fun more => ?_
      exact .of_gives (.value _)

theorem Settings.classInputs_steady
    (settings : Settings) :
    Logged.Steady (settings.classInputs tree) :=
  .of_gives ((ClassInput.atPaths_steady _).adapt Trouble.path)

end Classes

section Reports

variable {tree : Tree}

theorem ScanResult.mem_keys_ofParts
    {parts : List ScanPart}
    {key : Text} :
    key ∈ (ofParts parts).keys ↔ ∃ part ∈ parts, key ∈ part.found.keys := by
  suffices general :
      ∀ result : ScanResult,
        key ∈ (parts.foldl add result).keys ↔
          key ∈ result.keys ∨ ∃ part ∈ parts, key ∈ part.found.keys by
    refine (general ScanResult.empty).trans ?_
    simp [ScanResult.empty]
  induction parts with
  | nil =>
      simp
  | cons part parts inductionHypothesis =>
      intro result
      rw [List.foldl_cons, inductionHypothesis, add,
        Text.mem_sortedDistinct, List.mem_append, or_assoc,
        List.exists_mem_cons_iff]

/-- The report on documents and on the parts of a scan. -/
def AuditReport.ofParts
    (settings : Settings)
    (documents : List KeyDocument)
    (diagnostics : List Diagnostic)
    (parts : List ScanPart) : AuditReport :=
  let declared := KeyDocument.declaredByAny documents
  let scan := ScanResult.ofParts parts
  ⟨.compare declared scan.keys settings.alwaysUsedKeys
      settings.failOnUnusedKeys,
    declared,
    { scan with diagnostics := diagnostics ++ scan.diagnostics },
    documents.map KeyDocument.path⟩

theorem scanFor_gives
    (settings : Settings)
    (inputs : List ClassInput)
    (diagnostics : List Diagnostic) :
    Logged.Gives (scanFor settings tree inputs diagnostics)
      ((inputs.mapM fun input => input.outcome tree settings.extractor) >>=
        fun parts =>
          let scan := ScanResult.ofParts parts
          .ok { scan with diagnostics := diagnostics ++ scan.diagnostics }) := by
  unfold scanFor
  exact (ScanResult.ofInputs_gives inputs settings.extractor).bindMapped
    fun parts => .value _

/-- An audit gives a report on what its steps give. -/
theorem audit_gives
    (settings : Settings) :
    Logged.Gives (audit settings tree)
      (KeyDocument.loaded tree (settings.messageFiles.map Path.ofText) >>=
        fun documents =>
          (settings.classInputs tree).result.1 >>= fun found =>
            (found.1.mapM fun input =>
                input.outcome tree settings.extractor) >>= fun parts =>
              .ok (.ofParts settings documents found.2 parts)) := by
  unfold audit
  refine (KeyDocument.loadAll_gives _).bind ?_
  intro documents _
  refine (Logged.Gives.log _ _ _).andThen ?_
  refine Logged.Gives.bind (Settings.classInputs_steady settings) ?_
  rintro ⟨inputs, diagnostics⟩ _
  dsimp only
  split
  · refine (Logged.Gives.log _ _ _).andThen ?_
    exact (scanFor_gives settings inputs diagnostics).bindMapped
      fun parts => .value _
  · exact (scanFor_gives settings inputs diagnostics).bindMapped
      fun parts => .value _

namespace Settings

/-- Some key document that is there declares a key. -/
def Declares
    (settings : Settings)
    (tree : Tree)
    (key : Text) : Prop :=
  ∃ path ∈ settings.messageFiles.map Path.ofText,
    tree.isFile path = true ∧ KeyDocument.DeclaredAt tree path key

/-- Some class that is to be scanned uses a key. -/
def Uses
    (settings : Settings)
    (tree : Tree)
    (key : Text) : Prop :=
  ∃ inputs diagnostics,
    (settings.classInputs tree).result.1 = .ok (inputs, diagnostics) ∧
      ∃ input ∈ inputs,
        ∃ part,
          input.part tree settings.extractor = .ok part ∧
            key ∈ part.found.keys

/-- The declared and the used keys agree as far as the settings ask. -/
def KeysAgree
    (settings : Settings)
    (tree : Tree) : Prop :=
  KeyAudit.KeysAgree (settings.Declares tree) (settings.Uses tree)
    (· ∈ settings.alwaysUsedKeys) settings.failOnUnusedKeys

theorem mem_keys_iff_uses
    {settings : Settings}
    {inputs : List ClassInput}
    {diagnostics : List Diagnostic}
    (found :
      (settings.classInputs tree).result.1 = .ok (inputs, diagnostics))
    {parts : List ScanPart}
    (scanned :
      (inputs.mapM fun input => input.outcome tree settings.extractor) =
        .ok parts)
    {key : Text} :
    key ∈ (ScanResult.ofParts parts).keys ↔ settings.Uses tree key := by
  rw [ScanResult.mem_keys_ofParts]
  constructor
  · rintro ⟨part, isPart, isKey⟩
    obtain ⟨input, isInput, outcome⟩ :=
      (Outcome.mem_of_mapM scanned).mp isPart
    exact ⟨inputs, diagnostics, found, input, isInput, part,
      (ClassInput.outcome_eq_ok.mp outcome).2, isKey⟩
  · rintro ⟨others, otherDiagnostics, otherFound, input, isInput, part,
      isPart, isKey⟩
    rw [found] at otherFound
    cases otherFound
    obtain ⟨same, outcome⟩ := Outcome.ok_of_mapM scanned isInput
    have samePart := (ClassInput.outcome_eq_ok.mp outcome).2
    rw [isPart] at samePart
    cases samePart
    exact ⟨part, (Outcome.mem_of_mapM scanned).mpr ⟨input, isInput, outcome⟩,
      isKey⟩

end Settings

/-- A report compares the keys that are declared with those that are used. -/
theorem audit_compares
    {settings : Settings}
    {report : AuditReport}
    (reports : (audit settings tree).result.1 = .ok report) :
    ∃ declared used,
      report.verdict =
          .compare declared used settings.alwaysUsedKeys
            settings.failOnUnusedKeys ∧
        (∀ key, key ∈ declared ↔ settings.Declares tree key) ∧
        ∀ key, key ∈ used ↔ settings.Uses tree key := by
  rw [(audit_gives settings).result] at reports
  obtain ⟨documents, loads, reports⟩ := Outcome.bind_eq_ok.mp reports
  obtain ⟨⟨inputs, diagnostics⟩, found, reports⟩ :=
    Outcome.bind_eq_ok.mp reports
  obtain ⟨parts, scanned, reports⟩ := Outcome.bind_eq_ok.mp reports
  cases reports
  refine ⟨_, _, rfl, ?_, ?_⟩
  · intro key
    exact KeyDocument.mem_declaredByAny_of_loaded loads
  · intro key
    exact Settings.mem_keys_iff_uses found scanned

/-- The verdict of a report tells which keys are declared and used. -/
theorem audit_tells
    {settings : Settings}
    {report : AuditReport}
    (reports : (audit settings tree).result.1 = .ok report) :
    report.verdict.Tells (settings.Declares tree) (settings.Uses tree)
      (· ∈ settings.alwaysUsedKeys) settings.failOnUnusedKeys := by
  obtain ⟨declared, used, compares, isDeclared, isUsed⟩ :=
    audit_compares reports
  rw [compares, ← funext fun key => propext (isDeclared key),
    ← funext fun key => propext (isUsed key)]
  exact Verdict.compare_tells _ _ _ _

/-- A verdict that is not good stops a run with a failure that lists its keys. -/
theorem audit_fails
    {settings : Settings}
    {report : AuditReport}
    (reports : (audit settings tree).result.1 = .ok report)
    (bad : ¬report.verdict.ok = true) :
    ∃ failure,
      report.verdict.require.result.1 = .error failure ∧
        failure.kind = report.verdict.failureKind := by
  obtain ⟨declared, used, compares, _⟩ := audit_compares reports
  rw [compares] at bad ⊢
  obtain ⟨failure, fails, kind⟩ := Verdict.compare_fails bad
  exact ⟨failure, Verdict.require_of_failure fails, kind⟩

end Reports

end KeyAudit
