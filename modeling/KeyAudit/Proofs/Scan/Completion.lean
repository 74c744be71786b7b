import KeyAudit.Proofs.Report.Wording
import KeyAudit.Proofs.Scan.Accounting
import KeyAudit.Proofs.Text.Order

namespace KeyAudit

/-!
# Scans in any order of completion

Classes may be added in the order in which their scans are completed.  The counts
and the keys do not depend on it, and neither do the sorted diagnostics: two
diagnostics that sorting does not tell apart are equal, since the code of each
can be read off its message.
-/

namespace ScanResult

/-- Results that differ at most in the order of their diagnostics. -/
structure Agrees (first second : ScanResult) : Prop where
  keys : first.keys = second.keys
  diagnostics : first.diagnostics.Perm second.diagnostics
  scanned : first.scanned = second.scanned
  failed : first.failed = second.failed
  analysed : first.analysed = second.analysed

namespace Agrees

variable {first second third : ScanResult}

theorem refl
    (result : ScanResult) :
    Agrees result result :=
  ⟨rfl, .refl _, rfl, rfl, rfl⟩

theorem trans
    (agrees : Agrees first second)
    (agreesThird : Agrees second third) :
    Agrees first third where
  keys := agrees.keys.trans agreesThird.keys
  diagnostics := agrees.diagnostics.trans agreesThird.diagnostics
  scanned := agrees.scanned.trans agreesThird.scanned
  failed := agrees.failed.trans agreesThird.failed
  analysed := agrees.analysed.trans agreesThird.analysed

theorem add
    (agrees : Agrees first second)
    (part : ScanPart) :
    Agrees (first.add part) (second.add part) where
  keys := by
    simp only [ScanResult.add, agrees.keys]
  diagnostics := agrees.diagnostics.append_right _
  scanned := by
    simp only [ScanResult.add, agrees.scanned]
  failed := by
    simp only [ScanResult.add, agrees.failed]
  analysed := by
    simp only [ScanResult.add, agrees.analysed]

/-- Two classes may be added in either order. -/
theorem add_swap
    (result : ScanResult)
    (part other : ScanPart) :
    Agrees ((result.add part).add other)
      ((result.add other).add part) where
  keys := by
    refine Text.sortedDistinct_eq fun key => ?_
    simp only [ScanResult.add, List.mem_append, Text.mem_sortedDistinct]
    exact or_right_comm
  diagnostics := by
    simp only [ScanResult.add, List.append_assoc]
    exact List.perm_append_comm.append_left _
  scanned := by
    simp only [ScanResult.add]
    split <;> split <;> rfl
  failed := by
    simp only [ScanResult.add]
    split <;> split <;> rfl
  analysed := by
    simp only [ScanResult.add]
    exact Nat.add_right_comm _ _ _

theorem foldl
    (agrees : Agrees first second)
    (parts : List ScanPart) :
    Agrees (parts.foldl ScanResult.add first)
      (parts.foldl ScanResult.add second) := by
  induction parts generalizing first second with
  | nil =>
      exact agrees
  | cons part _ inductionHypothesis =>
      exact inductionHypothesis (agrees.add part)

/-- Classes may be added in any order. -/
theorem of_perm
    {parts completed : List ScanPart}
    (order : completed.Perm parts)
    (result : ScanResult) :
    Agrees (completed.foldl ScanResult.add result)
      (parts.foldl ScanResult.add result) := by
  induction order generalizing result with
  | nil =>
      exact refl result
  | cons part _ inductionHypothesis =>
      exact inductionHypothesis (result.add part)
  | swap part other rest =>
      exact (add_swap result other part).foldl rest
  | trans _ _ firstHypothesis secondHypothesis =>
      exact (firstHypothesis result).trans (secondHypothesis result)

end Agrees

theorem diagnostics_foldl
    (parts : List ScanPart)
    (result : ScanResult) :
    (parts.foldl add result).diagnostics =
      result.diagnostics ++
        parts.flatMap fun part => part.found.diagnostics := by
  induction parts generalizing result with
  | nil =>
      simp
  | cons part rest inductionHypothesis =>
      rw [List.foldl_cons, inductionHypothesis, List.flatMap_cons,
        ← List.append_assoc]
      rfl

end ScanResult

/-- Diagnostics whose codes can be read off their messages have one sorted order. -/
theorem Diagnostic.sorted_eq_of_perm
    {diagnostics others : List Diagnostic}
    (worded : ∀ diagnostic ∈ diagnostics, diagnostic.Worded)
    (order : others.Perm diagnostics) :
    sorted others = sorted diagnostics := by
  refine mergeSort_eq_of_perm ?_ ?_ ?_ order
  · intro first second
    exact Text.rowLe_linear.total _ _
  · intro first second third
    exact Text.rowLe_linear.trans
  · -- The rows leave out severity and code; the wording brings them back.
    intro first isFirst second isSecond below above
    have rows := Text.rowLe_linear.antisymm below above
    simp only [List.cons.injEq, and_true] at rows
    obtain ⟨unit, method, message⟩ := rows
    exact (worded first isFirst).eq (worded second isSecond) unit method
      message

theorem ScanResult.ofParts_eq_of_perm
    {parts completed : List ScanPart}
    (worded :
      ∀ part ∈ parts,
        ∀ diagnostic ∈ part.found.diagnostics, diagnostic.Worded)
    (order : completed.Perm parts) :
    ofParts completed = ofParts parts := by
  have agrees : Agrees (total completed) (total parts) :=
    .of_perm order empty
  have sorted :
      Diagnostic.sorted (total completed).diagnostics =
        Diagnostic.sorted (total parts).diagnostics := by
    refine Diagnostic.sorted_eq_of_perm ?_ agrees.diagnostics
    intro diagnostic member
    rw [total, diagnostics_foldl] at member
    obtain ⟨part, isPart, ofPart⟩ := List.mem_flatMap.mp member
    exact worded part isPart diagnostic ofPart
  simp only [ofParts, agrees.keys, agrees.scanned, agrees.failed,
    agrees.analysed, sorted]

section Inputs

variable {owners methods : List Text}
variable {qualifier : Text}

theorem Extractor.worded_of_warning
    {place : ClassFile × Method}
    {diagnostic : Diagnostic}
    (warns :
      (ofAllowLists owners methods qualifier).warning? place =
        some diagnostic) :
    diagnostic.Worded := by
  unfold warning? at warns
  rcases keysOfMethod_cases place.1.pool place.2 with
    ⟨keys, told⟩ | ⟨body, fault, hasBody, analysed, failed⟩
  · rw [told] at warns
    cases warns
  · rw [failed] at warns
    cases warns
    exact Diagnostic.worded_of_failure
      (MethodFrames.ofMethod_fails hasBody _ fault analysed) _ _

namespace ClassInput

variable {tree : Tree}

theorem load_fails
    (input : ClassInput) :
    Outcome.FailsOnly
      (fun failure => codeOf failure.message = failure.code)
      (input.load tree) := by
  have unreadable (reason : Text) :
      codeOf ("cannot read " ++ input.label ++ ": " ++ reason) =
        "MK-2000" := by
    rw [List.append_assoc, List.append_assoc]
    exact codeOf_of_opening (by decide) (by decide) _
  refine Outcome.FailsOnly.bind ?_ fun _ => ?_
  · exact (Outcome.FailsOnly.any _).mapError fun _ => unreadable _
  · exact (Outcome.FailsOnly.any _).mapError fun {fault} _ =>
      fault.codeOf_message

/-- Every input is a part of the scan, with codes that can be read off. -/
theorem part_worded
    (input : ClassInput) :
    ∃ part,
      input.part tree (.ofAllowLists owners methods qualifier) = .ok part ∧
        ∀ diagnostic ∈ part.found.diagnostics, diagnostic.Worded := by
  unfold part
  cases loaded : input.load tree with
  | error failure =>
      refine ⟨_, rfl, ?_⟩
      intro diagnostic member
      rw [List.mem_singleton.mp member]
      exact Diagnostic.worded_of_failure
        (input.load_fails failure loaded) _ _
  | ok file =>
      obtain ⟨found, told, accounts⟩ := Extractor.keysOfClass_accounts file
      refine ⟨⟨found, false⟩, Outcome.map_eq_ok.mpr ⟨found, told, rfl⟩, ?_⟩
      intro diagnostic member
      rw [accounts.warningsEq, List.mem_filterMap] at member
      obtain ⟨place, _, warns⟩ := member
      exact Extractor.worded_of_warning warns

theorem outcome_eq_ok
    {input : ClassInput}
    {extractor : Extractor}
    {part : ScanPart} :
    input.outcome tree extractor = .ok part ↔
      input.obstacle? tree = none ∧
        input.part tree extractor = .ok part := by
  unfold outcome
  cases input.obstacle? tree with
  | none => simp
  | some fault => simp

end ClassInput

namespace ScanResult

/--
Every input is a part of the scan, and adding the parts in any order of
completion comes to what scanning the inputs one after the other comes to,
which gives a result unless an input stops the scan: its path names nothing, or
it is in an archive with a fault that is not reported.
-/
theorem ofInputs_iff_completed
    (tree : Tree)
    (inputs : List ClassInput)
    (owners methods : List Text)
    (qualifier : Text) :
    ∃ parts,
      (inputs.mapM fun input =>
          input.part tree (.ofAllowLists owners methods qualifier)) =
        .ok parts ∧
      ∀ completed,
        completed.Perm parts →
        ∀ result,
          (ofInputs tree inputs
              (.ofAllowLists owners methods qualifier)).result.1 =
            .ok result ↔
          (∀ input ∈ inputs, input.obstacle? tree = none) ∧
            result = ofParts completed := by
  obtain ⟨parts, told, _⟩ :=
    Outcome.mapM_ok _ fun input (_ : input ∈ inputs) => input.part_worded
  refine ⟨parts, told, ?_⟩
  have worded :
      ∀ part ∈ parts,
        ∀ diagnostic ∈ part.found.diagnostics, diagnostic.Worded := by
    intro part isPart
    obtain ⟨input, _, toldPart⟩ := (Outcome.mem_of_mapM told).mp isPart
    obtain ⟨same, toldSame, worded⟩ := input.part_worded
    rw [toldPart] at toldSame
    cases toldSame
    exact worded
  intro completed order result
  -- What is given item by item splits into the obstacles and the parts.
  rw [(ofInputs_gives inputs _).result, ofParts_eq_of_perm worded order,
    Outcome.bind_eq_ok]
  simp only [Outcome.mapM_eq_ok, ClassInput.outcome_eq_ok,
    List.forall₂_and_left]
  constructor
  · rintro ⟨others, ⟨clear, each⟩, finished⟩
    rw [Outcome.mapM_eq_ok.mpr each] at told
    cases told
    cases finished
    exact ⟨clear, rfl⟩
  · rintro ⟨clear, rfl⟩
    exact ⟨parts, ⟨clear, Outcome.mapM_eq_ok.mp told⟩, rfl⟩

/-- Each file is scanned twice, and the last scan is completed first. -/
theorem ofInputs_iff_completed_repeated :
    ∃ parts,
      ((demoInputs ++ demoInputs).mapM fun input =>
          input.part demoTree (.ofAllowLists [] [] "")) = .ok parts ∧
      (ofInputs demoTree (demoInputs ++ demoInputs)
          (.ofAllowLists [] [] "")).result.1 =
        .ok (ofParts parts.reverse) := by
  obtain ⟨parts, told, completes⟩ :=
    ofInputs_iff_completed demoTree (demoInputs ++ demoInputs) [] [] ""
  refine ⟨parts, told, ?_⟩
  exact (completes parts.reverse parts.reverse_perm _).mpr
    ⟨by decide, rfl⟩

end ScanResult

end Inputs

end KeyAudit
