import KeyAudit.Proofs.Class.RoundTrip
import KeyAudit.Proofs.Key.Allowed
import KeyAudit.Proofs.Logged
import KeyAudit.Scan.Result

namespace KeyAudit

/-!
# The accounts of a scan

A scan of classes whose bytes can be read always comes to its end.  It counts
every class and every method with code exactly once, as analysed or as failed,
and a failure takes nothing from the keys of other methods.
-/

namespace ClassFile

/-- The classes among labelled bytes. -/
def parsed (sources : List (Text × Bytes)) : List ClassFile :=
  sources.filterMap fun (label, bytes) => (parse bytes label).toOption

/-- The labels of the bytes that are no classes, with what is wrong with them. -/
def unparsed (sources : List (Text × Bytes)) : List (Text × ClassFault) :=
  sources.filterMap fun (label, bytes) =>
    match parse bytes label with
    | .error fault => some (label, fault)
    | .ok _ => none

/-- The methods of a class that have code, each with the class. -/
def codeMethods (file : ClassFile) : List (ClassFile × Method) :=
  file.methodsWithCode.map fun (method, _) => (file, method)

section Sources

variable (sources : List (Text × Bytes))
variable {label : Text}
variable {bytes : Bytes}

theorem parsed_of_class
    {file : ClassFile}
    (isClass : parse bytes label = .ok file) :
    parsed (sources ++ [(label, bytes)]) = parsed sources ++ [file] ∧
      unparsed (sources ++ [(label, bytes)]) = unparsed sources := by
  simp [parsed, unparsed, isClass, Except.toOption]

theorem parsed_of_fault
    {fault : ClassFault}
    (noClass : parse bytes label = .error fault) :
    parsed (sources ++ [(label, bytes)]) = parsed sources ∧
      unparsed (sources ++ [(label, bytes)]) =
        unparsed sources ++ [(label, fault)] := by
  simp [parsed, unparsed, noClass, Except.toOption]

end Sources

end ClassFile

/-- The diagnostic of bytes that are no class. -/
def Diagnostic.ofClassFault (label : Text) (fault : ClassFault) : Diagnostic :=
  ⟨.warning, "MK-2000", fault.message, label, []⟩

namespace Extractor

/-- The diagnostic of a method whose keys cannot be told. -/
def warning?
    (extractor : Extractor)
    (place : ClassFile × Method) :
    Option Diagnostic :=
  match extractor.keysOfMethod place.1.pool place.2 with
  | .error (.method fault) =>
      some (.ofFailure fault.toFailure (noKeys place.1).unit
        place.2.signature)
  | _ => none

/-- Whether the keys of a method are told. -/
def isTold
    (extractor : Extractor)
    (place : ClassFile × Method) :
    Bool :=
  (extractor.keysOfMethod place.1.pool place.2).isOk

/-- The keys of one of the methods are told, and a key is among them. -/
def TellsKey
    (extractor : Extractor)
    (places : List (ClassFile × Method))
    (key : Text) : Prop :=
  ∃ place ∈ places,
    ∃ keys,
      extractor.keysOfMethod place.1.pool place.2 = .ok keys ∧ key ∈ keys

/-- What was found accounts for each of the methods. -/
structure Accounts
    (extractor : Extractor)
    (places : List (ClassFile × Method))
    (keys : List Text)
    (warnings : List Diagnostic)
    (analysed : Nat) : Prop where
  keysEq : ∀ {key}, key ∈ keys ↔ extractor.TellsKey places key
  warningsEq : warnings = places.filterMap extractor.warning?
  analysedEq : analysed = (places.filter extractor.isTold).length
  counted : analysed + warnings.length = places.length

end Extractor

/-- A result accounts for each of the sources. -/
structure ScanResult.Accounts
    (extractor : Extractor)
    (sources : List (Text × Bytes))
    (result : ScanResult) : Prop where
  classes : result.scanned + result.failed = sources.length
  failed : result.failed = (ClassFile.unparsed sources).length
  found :
    ∃ warnings,
      result.diagnostics.Perm
          ((ClassFile.unparsed sources).map
              (fun (label, fault) => .ofClassFault label fault) ++
            warnings) ∧
        extractor.Accounts
          ((ClassFile.parsed sources).flatMap ClassFile.codeMethods)
          result.keys warnings result.analysed

namespace Extractor

variable {extractor : Extractor}

theorem tellsKey_append
    {places more : List (ClassFile × Method)}
    {key : Text} :
    extractor.TellsKey (places ++ more) key ↔
      extractor.TellsKey places key ∨ extractor.TellsKey more key := by
  simp only [TellsKey, List.mem_append, or_and_right, exists_or]

theorem Accounts.nil :
    extractor.Accounts [] [] [] 0 where
  keysEq := by
    simp [TellsKey]
  warningsEq := rfl
  analysedEq := rfl
  counted := rfl

/-- Accounts can be added, however the keys are brought together. -/
theorem Accounts.append
    {places more : List (ClassFile × Method)}
    {keys moreKeys allKeys : List Text}
    {warnings moreWarnings : List Diagnostic}
    {analysed moreAnalysed : Nat}
    (accounts : extractor.Accounts places keys warnings analysed)
    (accountsMore :
      extractor.Accounts more moreKeys moreWarnings moreAnalysed)
    (union : ∀ {key}, key ∈ allKeys ↔ key ∈ keys ∨ key ∈ moreKeys) :
    extractor.Accounts (places ++ more) allKeys
      (warnings ++ moreWarnings) (analysed + moreAnalysed) where
  keysEq := by
    intro key
    rw [union, tellsKey_append, accounts.keysEq, accountsMore.keysEq]
  warningsEq := by
    rw [List.filterMap_append, accounts.warningsEq, accountsMore.warningsEq]
  analysedEq := by
    rw [List.filter_append, List.length_append, accounts.analysedEq,
      accountsMore.analysedEq]
  counted := by
    have counted := accounts.counted
    have countedMore := accountsMore.counted
    simp only [List.length_append]
    omega

theorem accounts_of_told
    {file : ClassFile}
    {method : Method}
    {keys : List Text}
    (told : extractor.keysOfMethod file.pool method = .ok keys) :
    extractor.Accounts [(file, method)] keys [] 1 where
  keysEq := by
    simp [TellsKey, told]
  warningsEq := by
    simp [warning?, told]
  analysedEq := by
    simp [isTold, told, Except.isOk, Except.toBool]
  counted := rfl

theorem accounts_of_fault
    {file : ClassFile}
    {method : Method}
    {fault : MethodFault}
    (failed :
      extractor.keysOfMethod file.pool method = .error (.method fault)) :
    extractor.Accounts [(file, method)] []
      [.ofFailure fault.toFailure (noKeys file).unit method.signature] 0 where
  keysEq := by
    simp [TellsKey, failed]
  warningsEq := by
    simp [warning?, failed]
  analysedEq := by
    simp [isTold, failed, Except.isOk, Except.toBool]
  counted := rfl

end Extractor

section Classes

variable {owners methods : List Text}
variable {qualifier : Text}

namespace Extractor

/-- Adding a method accounts for it. -/
theorem addMethod_accounts
    (file : ClassFile)
    (method : Method)
    {places : List (ClassFile × Method)}
    {found : ClassKeys}
    (unit : found.unit = (noKeys file).unit)
    (accounts :
      (ofAllowLists owners methods qualifier).Accounts places found.keys
        found.diagnostics found.analysed) :
    ∃ next,
      (ofAllowLists owners methods qualifier).addMethod file.pool found
          method = .ok next ∧
        next.unit = (noKeys file).unit ∧
          (ofAllowLists owners methods qualifier).Accounts
            (places ++ [(file, method)]) next.keys next.diagnostics
            next.analysed := by
  unfold addMethod
  rcases keysOfMethod_cases file.pool method with
    ⟨keys, told⟩ | ⟨_, fault, _, _, failed⟩
  · rw [told]
    refine ⟨_, rfl, unit, ?_⟩
    have union {key : Text} :
        key ∈ Text.sortedDistinct (found.keys ++ keys) ↔
          key ∈ found.keys ∨ key ∈ keys := by
      rw [Text.mem_sortedDistinct, List.mem_append]
    have next := accounts.append (accounts_of_told told) union
    rwa [List.append_nil] at next
  · rw [failed]
    refine ⟨_, rfl, unit, ?_⟩
    rw [unit]
    exact accounts.append (accounts_of_fault failed) (by simp)

/-- The keys of a class are told, and they account for all its methods with code. -/
theorem keysOfClass_accounts
    (file : ClassFile) :
    ∃ found,
      (ofAllowLists owners methods qualifier).keysOfClass file = .ok found ∧
        (ofAllowLists owners methods qualifier).Accounts file.codeMethods
          found.keys found.diagnostics found.analysed := by
  -- The methods added so far are accounted for, whichever are still to come.
  suffices general :
      ∀ (rest : List Method) (places : List (ClassFile × Method))
          (found : ClassKeys),
        found.unit = (noKeys file).unit →
        (ofAllowLists owners methods qualifier).Accounts places found.keys
          found.diagnostics found.analysed →
        ∃ final,
          rest.foldlM
              ((ofAllowLists owners methods qualifier).addMethod file.pool)
              found = .ok final ∧
            (ofAllowLists owners methods qualifier).Accounts
              (places ++ rest.map fun method => (file, method)) final.keys
              final.diagnostics final.analysed by
    have finished :=
      general (file.methodsWithCode.map Prod.fst) [] (noKeys file) rfl .nil
    rwa [List.nil_append, List.map_map] at finished
  intro rest
  induction rest with
  | nil =>
      intro places found unit accounts
      exact ⟨found, rfl, by simpa using accounts⟩
  | cons method rest inductionHypothesis =>
      intro places found unit accounts
      obtain ⟨next, added, nextUnit, nextAccounts⟩ :=
        addMethod_accounts file method unit accounts
      obtain ⟨final, finished, finalAccounts⟩ :=
        inductionHypothesis _ next nextUnit nextAccounts
      refine ⟨final, ?_, ?_⟩
      · rw [List.foldlM_cons, Outcome.bind_eq_ok]
        exact ⟨next, added, finished⟩
      · rwa [List.append_assoc] at finalAccounts

end Extractor

/-- What adding a part accounts for. -/
inductive ScanPart.Accounts
    (extractor : Extractor) :
    Text × Bytes → ScanPart → Prop where
  | parsed
      {label : Text}
      {bytes : Bytes}
      {file : ClassFile}
      {found : ClassKeys}
      (isClass : ClassFile.parse bytes label = .ok file)
      (accounts :
        extractor.Accounts file.codeMethods found.keys found.diagnostics
          found.analysed) :
      Accounts extractor (label, bytes) ⟨found, false⟩
  | unparsed
      {label : Text}
      {bytes : Bytes}
      {fault : ClassFault}
      (noClass : ClassFile.parse bytes label = .error fault) :
      Accounts extractor (label, bytes)
        ⟨⟨label, [], [.ofClassFault label fault], 0⟩, true⟩

theorem ClassInput.load_of_read
    {tree : Tree}
    {input : ClassInput}
    {bytes : Bytes}
    (reads : input.read tree = .ok bytes) :
    input.load tree =
      (ClassFile.parse bytes input.label).mapError ClassFault.toFailure := by
  unfold load
  rw [reads]
  rfl

/-- An input that can be read is a part of the scan, and the part accounts for it. -/
theorem ClassInput.part_accounts
    {tree : Tree}
    {input : ClassInput}
    {bytes : Bytes}
    (reads : input.read tree = .ok bytes) :
    ∃ part,
      input.part tree (.ofAllowLists owners methods qualifier) = .ok part ∧
        part.Accounts (.ofAllowLists owners methods qualifier)
          (input.label, bytes) := by
  unfold part
  rw [load_of_read reads]
  cases parsed : ClassFile.parse bytes input.label with
  | error fault =>
      exact ⟨_, rfl, .unparsed parsed⟩
  | ok file =>
      obtain ⟨found, told, accounts⟩ := Extractor.keysOfClass_accounts file
      refine ⟨⟨found, false⟩, ?_, .parsed parsed accounts⟩
      exact Outcome.map_eq_ok.mpr ⟨found, told, rfl⟩

end Classes

namespace ScanResult

variable {extractor : Extractor}

theorem Accounts.empty :
    ScanResult.empty.Accounts extractor [] where
  classes := rfl
  failed := rfl
  found := ⟨[], .refl _, .nil⟩

/-- Adding a part accounts for its source. -/
theorem Accounts.add
    {sources : List (Text × Bytes)}
    {result : ScanResult}
    (accounts : result.Accounts extractor sources)
    {source : Text × Bytes}
    {part : ScanPart}
    (partAccounts : part.Accounts extractor source) :
    (result.add part).Accounts extractor (sources ++ [source]) := by
  obtain ⟨classes, failed, warnings, diagnostics, found⟩ := accounts
  have union {key : Text} :
      key ∈ (result.add part).keys ↔
        key ∈ result.keys ∨ key ∈ part.found.keys := by
    rw [ScanResult.add, Text.mem_sortedDistinct, List.mem_append]
  cases partAccounts with
  | parsed isClass partFound =>
      rename_i label bytes file classKeys
      obtain ⟨parsed, unparsed⟩ := ClassFile.parsed_of_class sources isClass
      refine ⟨?_, ?_, warnings ++ classKeys.diagnostics, ?_, ?_⟩
      · simp only [ScanResult.add, List.length_append,
          List.length_singleton, ← classes]
        simp
        omega
      · rw [unparsed]
        exact failed
      · rw [unparsed, ← List.append_assoc]
        exact diagnostics.append_right _
      · rw [parsed, List.flatMap_append, List.flatMap_singleton]
        exact found.append partFound union
  | unparsed noClass =>
      obtain ⟨parsed, unparsed⟩ := ClassFile.parsed_of_fault sources noClass
      refine ⟨?_, ?_, warnings, ?_, ?_⟩
      · simp only [ScanResult.add, List.length_append,
          List.length_singleton, ← classes]
        simp
        omega
      · rw [unparsed, List.length_append, ← failed]
        rfl
      · rw [unparsed, List.map_append, List.append_assoc]
        refine (diagnostics.append_right _).trans ?_
        rw [List.append_assoc]
        exact List.perm_append_comm.append_left _
      · rw [parsed]
        have same := found.append .nil union
        rwa [List.append_nil, List.append_nil] at same

/-- The sum of parts accounts for the sources of all of them. -/
theorem total_accounts
    {sources : List (Text × Bytes)}
    {parts : List ScanPart}
    (each :
      List.Forall₂ (fun source part => part.Accounts extractor source)
        sources parts) :
    (total parts).Accounts extractor sources := by
  suffices general :
      ∀ (done : List (Text × Bytes)) (result : ScanResult),
        result.Accounts extractor done →
        (parts.foldl add result).Accounts extractor (done ++ sources) from
    general [] ScanResult.empty .empty
  induction each with
  | nil =>
      intro done result accounts
      rwa [List.append_nil]
  | cons partAccounts _ inductionHypothesis =>
      intro done result accounts
      have next := inductionHypothesis _ _ (accounts.add partAccounts)
      rwa [List.append_assoc] at next

/-- Sorting the diagnostics keeps the accounts. -/
theorem ofParts_accounts
    {sources : List (Text × Bytes)}
    {parts : List ScanPart}
    (each :
      List.Forall₂ (fun source part => part.Accounts extractor source)
        sources parts) :
    (ofParts parts).Accounts extractor sources := by
  obtain ⟨classes, failed, warnings, diagnostics, found⟩ :=
    total_accounts each
  refine ⟨classes, failed, warnings, ?_, found⟩
  exact (List.mergeSort_perm _ _).trans diagnostics

end ScanResult

section Runs

variable {tree : Tree}

theorem Tree.named_of_find
    {path : Path}
    {found : Path × Content}
    (finds : tree.find path = .ok found) :
    path.nameless? = none := by
  obtain ⟨bytes, named, _⟩ := Outcome.bind_eq_ok.mp finds
  rw [Outcome.mapError_eq_ok] at named
  simp only [Path.nameless?, named]

theorem ClassInput.named_of_read
    {input : ClassInput}
    {bytes : Bytes}
    (reads : input.read tree = .ok bytes) :
    input.path.nameless? = none := by
  unfold read at reads
  rw [Outcome.mapError_eq_ok] at reads
  split at reads
  · rw [Outcome.mapError_eq_ok] at reads
    obtain ⟨found, finds, _⟩ := Outcome.bind_eq_ok.mp reads
    exact Tree.named_of_find finds
  · obtain ⟨entries, opens, _⟩ := Outcome.bind_eq_ok.mp reads
    obtain ⟨found, finds, _⟩ := Outcome.bind_eq_ok.mp opens
    rw [Outcome.mapError_eq_ok] at finds
    exact Tree.named_of_find finds

theorem ClassInput.obstacle?_of_read
    {input : ClassInput}
    {bytes : Bytes}
    (reads : input.read tree = .ok bytes) :
    input.obstacle? tree = none := by
  unfold obstacle?
  rw [named_of_read reads]
  cases isEntry : input.entry with
  | none =>
      rfl
  | some entry =>
      unfold read at reads
      rw [Outcome.mapError_eq_ok, isEntry] at reads
      dsimp only at reads ⊢
      rw [reads]

/-- What scanning an input comes to. -/
def ClassInput.outcome
    (input : ClassInput)
    (tree : Tree)
    (extractor : Extractor) :
    Except Trouble ScanPart :=
  match input.obstacle? tree with
  | some fault => .error (.path fault)
  | none => (input.part tree extractor).mapError Trouble.ofExtraction

theorem ClassInput.scan_gives
    (input : ClassInput)
    (extractor : Extractor) :
    Logged.Gives (input.scan tree extractor)
      (input.outcome tree extractor) := by
  unfold scan outcome
  cases input.obstacle? tree with
  | some fault =>
      exact .fault _
  | none =>
      exact (Logged.Gives.log _ _ _).andThen (.ofExcept _)

/-- A scan of inputs gives the result of the parts that they are. -/
theorem ScanResult.ofInputs_gives
    (inputs : List ClassInput)
    (extractor : Extractor) :
    Logged.Gives (ofInputs tree inputs extractor)
      ((inputs.mapM fun input => input.outcome tree extractor) >>=
        fun parts => .ok (ofParts parts)) := by
  unfold ofInputs
  refine (Logged.Gives.log _ _ _).andThen ?_
  refine (Logged.Gives.mapM (fun input => input.scan_gives extractor)
    inputs).bind ?_
  intro parts _
  refine (Logged.Gives.loop ?_ _).andThen ?_
  · intro diagnostic
    exact (Logged.Gives.log _ _ _).andThen (.value _)
  · exact (Logged.Gives.log _ _ _).andThen (.value _)

/-- Inputs that can be read are parts that account for them. -/
theorem ClassInput.outcomes_account
    {owners methods : List Text}
    {qualifier : Text}
    {inputs : List ClassInput}
    {content : ClassInput → Bytes}
    (reads : ∀ input ∈ inputs, input.read tree = .ok (content input)) :
    ∃ parts,
      (inputs.mapM fun input =>
          input.outcome tree (.ofAllowLists owners methods qualifier)) =
        .ok parts ∧
        List.Forall₂
          (fun source part =>
            part.Accounts (.ofAllowLists owners methods qualifier) source)
          (inputs.map fun input => (input.label, content input)) parts := by
  have each :
      ∀ input ∈ inputs,
        ∃ part,
          input.outcome tree (.ofAllowLists owners methods qualifier) =
              .ok part ∧
            part.Accounts (.ofAllowLists owners methods qualifier)
              (input.label, content input) := by
    intro input member
    obtain ⟨part, isPart, accounts⟩ := part_accounts (reads input member)
    refine ⟨part, ?_, accounts⟩
    simp only [outcome, obstacle?_of_read (reads input member)]
    exact Outcome.mapError_eq_ok.mpr isPart
  obtain ⟨parts, outcomes, accounts⟩ := Outcome.mapM_ok _ each
  exact ⟨parts, outcomes, List.forall₂_map_left_iff.mpr accounts⟩

/--
A scan with allow lists of inputs that can be read comes to a result, which
accounts for all inputs and all their methods with code; on the way nothing
that is looked up is missing.
-/
theorem ScanResult.ofInputs_accounts
    (owners methods : List Text)
    (qualifier : Text)
    {inputs : List ClassInput}
    {content : ClassInput → Bytes}
    (reads : ∀ input ∈ inputs, input.read tree = .ok (content input)) :
    (∃ result,
      (ofInputs tree inputs
          (.ofAllowLists owners methods qualifier)).result.1 = .ok result ∧
        result.Accounts (.ofAllowLists owners methods qualifier)
          (inputs.map fun input => (input.label, content input))) ∧
      ∀ pool method,
        (Extractor.ofAllowLists owners methods qualifier).MissesNothing
          pool method := by
  obtain ⟨parts, outcomes, accounts⟩ :=
    ClassInput.outcomes_account reads
  refine ⟨⟨ofParts parts, ?_, ofParts_accounts accounts⟩, ?_⟩
  · rw [(ofInputs_gives inputs _).result, outcomes]
    rfl
  · intro pool method
    exact Extractor.missesNothing _ pool method

/-- A class, and a file that breaks off. -/
def demoContent (input : ClassInput) : Bytes :=
  if input.label = "A.class" then ClassFile.demoImage.bytes else [0xCA, 0xFE]

def demoInputs : List ClassInput :=
  [⟨⟨"", ["A.class"]⟩, none⟩, ⟨⟨"", ["B.class"]⟩, none⟩]

def demoTree : Tree :=
  ⟨"/work",
    demoInputs.map fun input => (input.path, .file (demoContent input))⟩

theorem ScanResult.ofInputs_accounts_demoTree :
    (∃ result,
      (ofInputs demoTree demoInputs (.ofAllowLists [] [] "")).result.1 =
          .ok result ∧
        result.Accounts (.ofAllowLists [] [] "")
          (demoInputs.map fun input => (input.label, demoContent input))) ∧
      ∀ pool method,
        (Extractor.ofAllowLists [] [] "").MissesNothing pool method := by
  have reads :
      ∀ input ∈ demoInputs,
        input.read demoTree = .ok (demoContent input) := by
    decide +kernel
  exact ScanResult.ofInputs_accounts [] [] "" reads

end Runs

end KeyAudit
