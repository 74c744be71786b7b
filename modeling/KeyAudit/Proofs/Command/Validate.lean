import KeyAudit.Proofs.Audit

namespace KeyAudit

/-!
# The exit code of a comparison

A run that compares declared with used keys ends with 0 if they agree, with 1
if they do not, and with 2 if settings or key documents are to blame that there
is nothing to compare.
-/

/-- A failure is about settings or about a key document. -/
def Failure.IsAboutInput (failure : Failure) : Prop :=
  failure.kind = .settings ∨ ∃ path, failure.kind = .document path

/-- Reading the settings or the audit that they ask for comes to a trouble. -/
def ScanArguments.Stops
    (arguments : ScanArguments)
    (tree : Tree)
    (trouble : Trouble) : Prop :=
  (arguments.settings tree).result.1 = .error trouble ∨
    ∃ settings,
      (arguments.settings tree).result.1 = .ok settings ∧
        (audit settings tree).result.1 = .error trouble

namespace RunResult

variable {tree : Tree}
variable {level : LogLevel}

/-- A report on keys that disagree ends in the failure of its verdict. -/
theorem ofReport_of_failure
    {report : AuditReport}
    {failure : Failure}
    (fails : report.verdict.require.result.1 = .error failure)
    (console : List Text)
    (form : ReportForm) :
    (ofReport level console form report).exitCode = 1 ∧
      errorLine failure.display <:+
        (ofReport level console form report).console := by
  unfold ofReport
  rw [← Prod.eta report.verdict.require.result, fails]
  exact ⟨rfl, List.suffix_append _ _⟩

theorem exitCode_ofReport_eq_zero_iff
    {report : AuditReport}
    {console : List Text}
    {form : ReportForm} :
    (ofReport level console form report).exitCode = 0 ↔
      report.verdict.require.result.1 = .ok () := by
  cases ends : report.verdict.require.result.1 with
  | error failure =>
      rw [(ofReport_of_failure ends console form).1]
      simp
  | ok done =>
      unfold ofReport
      rw [← Prod.eta report.verdict.require.result, ends]
      simp

theorem ofTrouble_of_input
    {failure : Failure}
    (isAbout : failure.IsAboutInput)
    (console : List Text) :
    (ofTrouble console (.failure failure)).exitCode = 2 ∧
      errorLine failure.display <:+
        (ofTrouble console (.failure failure)).console := by
  obtain ⟨kind, message⟩ := failure
  rcases isAbout with rfl | ⟨path, rfl⟩
  · exact ⟨rfl, List.suffix_append _ _⟩
  · exact ⟨rfl, List.suffix_append _ _⟩

/-- The work of a run gives what reading the settings and the audit give. -/
theorem work_result
    {arguments : ScanArguments}
    {outcome : Except Trouble AuditReport}
    (comes :
      ((arguments.settings tree).result.1 >>= fun settings =>
          (audit settings tree).result.1) = outcome) :
    ∃ records,
      (arguments.settings tree >>= fun settings =>
          audit settings tree).result = (outcome, records) := by
  refine ⟨_, Prod.ext ?_ rfl⟩
  rw [← comes]
  exact Logged.result_bind _ fun settings => .of_gives (audit_gives settings)

theorem validate_of_report
    {arguments : ScanArguments}
    {settings : Settings}
    {report : AuditReport}
    (given : (arguments.settings tree).result.1 = .ok settings)
    (reports : (audit settings tree).result.1 = .ok report) :
    ∃ console,
      validate tree level arguments =
        ofReport level console arguments.form report := by
  obtain ⟨records, ran⟩ := work_result
    (Outcome.bind_eq_ok.mpr ⟨settings, given, reports⟩)
  refine ⟨consoleLines level records, ?_⟩
  simp only [validate, ran]

theorem validate_of_trouble
    {arguments : ScanArguments}
    {trouble : Trouble}
    (stops : arguments.Stops tree trouble) :
    ∃ console,
      validate tree level arguments = ofTrouble console trouble := by
  have comes :
      ((arguments.settings tree).result.1 >>= fun settings =>
          (audit settings tree).result.1) = .error trouble := by
    rcases stops with stopped | ⟨settings, given, stopped⟩
    · rw [stopped]
      rfl
    · rw [given]
      exact stopped
  obtain ⟨records, ran⟩ := work_result comes
  refine ⟨consoleLines level records, ?_⟩
  simp only [validate, ran]

/--
If an audit gives a report, its verdict lists in order the keys in which what is
declared differs from what is used.  It is good, stops nothing and lets the run
end with 0 exactly if the keys agree; otherwise the run ends with 1 in a failure
that has the listed keys.  Settings and key documents at fault end it with 2.
-/
theorem validate_iff_keysAgree
    (tree : Tree)
    (level : LogLevel) :
    (∀ settings report,
      (audit settings tree).result.1 = .ok report →
        report.verdict.Tells (settings.Declares tree) (settings.Uses tree)
            (· ∈ settings.alwaysUsedKeys) settings.failOnUnusedKeys ∧
          (report.verdict.ok = true ↔ settings.KeysAgree tree) ∧
          (report.verdict.require.result.1 = .ok () ↔
            settings.KeysAgree tree) ∧
          (∀ arguments,
            (arguments.settings tree).result.1 = .ok settings →
              ((validate tree level arguments).exitCode = 0 ↔
                settings.KeysAgree tree)) ∧
          (¬settings.KeysAgree tree →
            ∃ failure,
              report.verdict.require.result.1 = .error failure ∧
                failure.kind = report.verdict.failureKind ∧
                ∀ arguments,
                  (arguments.settings tree).result.1 = .ok settings →
                    (validate tree level arguments).exitCode = 1 ∧
                      errorLine failure.display <:+
                        (validate tree level arguments).console)) ∧
      ∀ arguments failure,
        failure.IsAboutInput →
        arguments.Stops tree (.failure failure) →
          (validate tree level arguments).exitCode = 2 ∧
            errorLine failure.display <:+
              (validate tree level arguments).console := by
  refine ⟨?_, ?_⟩
  · intro settings report reports
    have tells := audit_tells reports
    have good : report.verdict.ok = true ↔ settings.KeysAgree tree :=
      tells.ok_iff_agree
    refine ⟨tells, good, Verdict.require_eq_ok_iff.trans good, ?_, ?_⟩
    · intro arguments given
      obtain ⟨console, ends⟩ := validate_of_report given reports
      rw [ends, exitCode_ofReport_eq_zero_iff, Verdict.require_eq_ok_iff, good]
    · intro bad
      rw [← good] at bad
      obtain ⟨failure, stops, kind⟩ := audit_fails reports bad
      refine ⟨failure, stops, kind, ?_⟩
      intro arguments given
      obtain ⟨console, ends⟩ := validate_of_report given reports
      rw [ends]
      exact ofReport_of_failure stops console arguments.form
  · intro arguments failure isAbout stops
    obtain ⟨console, ends⟩ := validate_of_trouble stops
    rw [ends]
    exact ofTrouble_of_input isAbout console

/-- A class with one method, which looks up a key. -/
def lookupImage
    (key : Text)
    (decodes : ModifiedUtf8.decode? (key.flatMap Utf8.encodePoint) = some key)
    (fits : (key.flatMap Utf8.encodePoint).length < 0x10000) : ClassImage where
  minor := 0
  major := 52
  constants :=
    [.ofText CallSite.messageService (by decide +kernel) (by decide +kernel),
      .classRef 1,
      .ofText "raw" (by decide +kernel) (by decide +kernel),
      .ofText "(Ljava/lang/String;)V" (by decide +kernel) (by decide +kernel),
      .nameAndType 3 4,
      .methodRef 2 5,
      .ofText key decodes fits,
      .string 7,
      .ofText "Code" (by decide +kernel) (by decide +kernel)]
  access := 0x21
  thisIndex := 2
  superIndex := 0
  interfaces := .nil
  fields := .nil
  methods :=
    ⟨[⟨1, 3, 4, [],
        some
          ⟨9,
            ⟨2, 2, [0x2A, 0x12, 8, 0xB6, 0, 6, 0xB1], .nil, .nil, by decide⟩,
            by decide⟩,
        [], by decide⟩],
      by decide⟩
  fits := Nat.le_of_ble_eq_true rfl

def goneKey : Text := "menu.gone"

def oldKey : Text := "menu.old"

def titleKey : Text := "menu.title"

/--
A tree with a key document, which has two texts and a number, and with two
classes, of which the first looks up a key that no document declares.
-/
def draftTree : Tree :=
  ⟨"/work",
    [(Path.ofText "de.yml",
      .file
        ((Text.ofString "menu:\n  old: Alt\n  title: Hallo\n  size: 3\n").flatMap
          Utf8.encodePoint)),
      (Path.ofText "A.class",
        .file
          (lookupImage goneKey (by decide +kernel) (by decide +kernel)).bytes),
      (Path.ofText "B.class",
        .file
          (lookupImage titleKey (by decide +kernel) (by decide +kernel)).bytes)]⟩

/-- A strict comparison that names two documents and two classes. -/
def draftArguments : ScanArguments where
  classes := [Text.ofString "A.class", Text.ofString "B.class"]
  settingsFile := none
  keyPrefix := none
  owners := []
  methods := []
  jobs := none
  messages := [.value "en.yml", .value "de.yml"]
  alwaysUsed := []
  strict := some true
  form := .text

def draftSettings : Settings :=
  { Settings.initial with
    messagesFile := "en.yml"
    additionalMessagesFiles := [Text.ofString "de.yml"]
    classesDirs := [Text.ofString "A.class", Text.ofString "B.class"] }

/-- What the classes are found to use. -/
def draftParts : List ScanPart :=
  [⟨⟨"A.class", [goneKey], [], 1⟩, false⟩,
    ⟨⟨"B.class", [titleKey], [], 1⟩, false⟩]

def draftReport : AuditReport where
  verdict := ⟨[goneKey], [oldKey], true⟩
  declared := [oldKey, titleKey]
  scan := ⟨[goneKey, titleKey], [], 2, 0, 2⟩
  documents := ["/work/de.yml"]

theorem ofParts_draft
    {document : KeyDocument}
    (path : document.path = "/work/de.yml")
    (texts : document.entries.textNames = [oldKey, titleKey]) :
    AuditReport.ofParts draftSettings [document] [] draftParts =
      draftReport := by
  have oldFirst :
      Text.sortedDistinct [oldKey, titleKey] = [oldKey, titleKey] :=
    Text.sortedDistinct_of_ordered
      (List.pairwise_pair.mpr ⟨by decide, by decide⟩)
  have goneFirst :
      Text.sortedDistinct [goneKey, titleKey] = [goneKey, titleKey] :=
    Text.sortedDistinct_of_ordered
      (List.pairwise_pair.mpr ⟨by decide, by decide⟩)
  have declared :
      KeyDocument.declaredByAny [document] = [oldKey, titleKey] := by
    simp only [KeyDocument.declaredByAny, List.flatMap_singleton,
      KeyDocument.declared, texts, oldFirst]
  have used :
      (ScanResult.ofParts draftParts).keys = [goneKey, titleKey] := by
    change Text.sortedDistinct (Text.sortedDistinct [goneKey] ++ [titleKey]) = _
    rw [Text.sortedDistinct_of_ordered (List.pairwise_singleton _ _)]
    exact goneFirst
  have verdict :
      Verdict.compare [oldKey, titleKey] [goneKey, titleKey]
          draftSettings.alwaysUsedKeys draftSettings.failOnUnusedKeys =
        draftReport.verdict := by
    decide +kernel
  have quiet : (ScanResult.ofParts draftParts).diagnostics = [] := by
    decide +kernel
  simp only [AuditReport.ofParts, declared, used, verdict, quiet,
    List.map_singleton, path]
  rfl

theorem audit_draft :
    (audit draftSettings draftTree).result.1 = .ok draftReport := by
  have loads :
      (KeyDocument.loaded draftTree
          (draftSettings.messageFiles.map Path.ofText)).map
          (fun documents => documents.map fun document =>
            (document.path, document.entries.textNames)) =
        .ok [("/work/de.yml", [oldKey, titleKey])] := by
    decide +kernel
  have found :
      (draftSettings.classInputs draftTree).result.1 =
        .ok
          ([⟨Path.ofText "A.class", none⟩, ⟨Path.ofText "B.class", none⟩],
            []) := by
    decide +kernel
  have scanned :
      (List.mapM (fun input => ClassInput.outcome input draftTree draftSettings.extractor)
          [⟨Path.ofText "A.class", none⟩, ⟨Path.ofText "B.class", none⟩]) =
        .ok draftParts := by
    decide +kernel
  obtain ⟨documents, loads, shape⟩ := Outcome.map_eq_ok.mp loads
  obtain ⟨document, rfl, same⟩ := List.map_eq_singleton_iff.mp shape
  obtain ⟨path, texts⟩ := Prod.mk.inj same
  rw [(audit_gives draftSettings).result, loads]
  refine Outcome.bind_eq_ok.mpr ⟨_, rfl, ?_⟩
  refine Outcome.bind_eq_ok.mpr ⟨_, found, ?_⟩
  refine Outcome.bind_eq_ok.mpr ⟨_, scanned, ?_⟩
  rw [ofParts_draft path texts]

/--
The key that the first class looks up is missing, and a key of the document is
unused; missing keys are reported first.  Without any document there is no
report.
-/
theorem validate_iff_keysAgree_draft :
    (∃ report failure,
      (audit draftSettings draftTree).result.1 = .ok report ∧
        report.verdict = ⟨[goneKey], [oldKey], true⟩ ∧
        report.scan.keys = [goneKey, titleKey] ∧
        draftSettings.Uses draftTree goneKey ∧
        ¬draftSettings.Declares draftTree goneKey ∧
        ¬draftSettings.KeysAgree draftTree ∧
        report.verdict.require.result.1 = .error failure ∧
        failure.kind = .missingKeys [goneKey] ∧
        (validate draftTree .warning draftArguments).exitCode = 1) ∧
      (validate (.empty "/work") .warning draftArguments).exitCode = 2 := by
  have given :
      (draftArguments.settings draftTree).result.1 = .ok draftSettings := by
    decide +kernel
  have stops :
      draftArguments.Stops (.empty "/work")
        (.failure KeyDocument.noneFound) :=
    .inr ⟨draftSettings, by decide +kernel, by decide +kernel⟩
  obtain ⟨tells, good, _, _, fails⟩ :=
    (validate_iff_keysAgree draftTree .warning).1 _ _ audit_draft
  have bad : ¬draftSettings.KeysAgree draftTree := by
    rw [← good]
    decide
  obtain ⟨failure, raised, kind, ends⟩ := fails bad
  obtain ⟨isUsed, undeclared⟩ :=
    (tells.missing goneKey).mp (List.mem_singleton_self _)
  refine
    ⟨⟨_, failure, audit_draft, rfl, rfl, isUsed, undeclared, bad, raised, kind, ?_⟩, ?_⟩
  · exact (ends draftArguments given).1
  · exact
      ((validate_iff_keysAgree (.empty "/work") .warning).2 draftArguments _
        (.inl rfl) stops).1

end RunResult

end KeyAudit
