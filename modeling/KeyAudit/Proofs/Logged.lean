import KeyAudit.Log

namespace KeyAudit.Logged

/-!
# What logged work gives

The records that work writes do not change what it gives, so logged work can be
replaced by the plain outcome of its steps.
-/

variable {Fault First Second : Type}

/-- Work has an outcome, whatever was logged before. -/
def Gives
    (work : Logged Fault First)
    (outcome : Except Fault First) : Prop :=
  ∀ records, (StateT.run (ExceptT.run work) records).1 = outcome

namespace Gives

theorem result
    {work : Logged Fault First}
    {outcome : Except Fault First}
    (gives : Gives work outcome) :
    work.result.1 = outcome :=
  gives []

theorem value
    (first : First) :
    Gives (pure first : Logged Fault First) (.ok first) := by
  intro records
  rfl

theorem fault
    (reason : Fault) :
    Gives (throw reason : Logged Fault First) (.error reason) := by
  intro records
  rfl

theorem log
    (level : LogLevel)
    (source : LogSource)
    (message : Text) :
    Gives (Logged.log level source message : Logged Fault Unit)
      (.ok ()) := by
  intro records
  rfl

theorem ofExcept
    (outcome : Except Fault First) :
    Gives (Logged.ofExcept outcome) outcome := by
  intro records
  cases outcome <;> rfl

theorem bind
    {work : Logged Fault First}
    {outcome : Except Fault First}
    (gives : Gives work outcome)
    {next : First → Logged Fault Second}
    {after : First → Except Fault Second}
    (givesNext :
      ∀ first,
        outcome = .ok first →
        Gives (next first) (after first)) :
    Gives (work >>= next) (outcome >>= after) := by
  intro records
  obtain ⟨later, ran⟩ :
      ∃ later,
        StateT.run (ExceptT.run work) records = (outcome, later) :=
    ⟨_, Prod.ext (gives records) rfl⟩
  rw [ExceptT.run_bind, StateT.run_bind, ran]
  cases outcome with
  | error reason =>
      rfl
  | ok value =>
      exact givesNext value rfl later

/-- The next step follows only on the value that was given. -/
theorem andThen
    {work : Logged Fault First}
    {first : First}
    (gives : Gives work (.ok first))
    {next : First → Logged Fault Second}
    {outcome : Except Fault Second}
    (givesNext : Gives (next first) outcome) :
    Gives (work >>= next) outcome := by
  change Gives (work >>= next) (Except.ok first >>= fun _ => outcome)
  refine gives.bind ?_
  intro other same
  cases same
  exact givesNext

theorem mapM
    {step : First → Logged Fault Second}
    {outcome : First → Except Fault Second}
    (gives : ∀ item, Gives (step item) (outcome item))
    (items : List First) :
    Gives (items.mapM step) (items.mapM outcome) := by
  induction items with
  | nil =>
      exact value []
  | cons item items inductionHypothesis =>
      rw [List.mapM_cons, List.mapM_cons]
      exact (gives item).bind fun _ _ =>
        inductionHypothesis.bind fun _ _ => value _

/-- A loop that always goes on gives nothing. -/
theorem loop
    {step : First → PUnit → Logged Fault (ForInStep PUnit)}
    (gives : ∀ item, Gives (step item ()) (.ok (.yield ())))
    (items : List First) :
    Gives (forIn items () step) (.ok ()) := by
  induction items with
  | nil =>
      exact value ()
  | cons item items inductionHypothesis =>
      rw [List.forIn_cons]
      exact (gives item).andThen inductionHypothesis

/-- Nothing follows on a fault. -/
theorem stop
    {work : Logged Fault First}
    {reason : Fault}
    (gives : Gives work (.error reason))
    (next : First → Logged Fault Second) :
    Gives (work >>= next) (.error reason) := by
  intro records
  obtain ⟨later, ran⟩ :
      ∃ later,
        StateT.run (ExceptT.run work) records = (.error reason, later) :=
    ⟨_, Prod.ext (gives records) rfl⟩
  rw [ExceptT.run_bind, StateT.run_bind, ran]
  rfl

/-- The next step follows on what was made of the value of plain steps. -/
theorem bindMapped
    {Third : Type}
    {work : Logged Fault Second}
    {steps : Except Fault First}
    {change : First → Second}
    (gives : Gives work (steps >>= fun first => .ok (change first)))
    {next : Second → Logged Fault Third}
    {after : First → Except Fault Third}
    (givesNext : ∀ first, Gives (next (change first)) (after first)) :
    Gives (work >>= next) (steps >>= after) := by
  cases steps with
  | error reason =>
      exact gives.stop next
  | ok first =>
      exact gives.andThen (givesNext first)

/-- A loop stops at the first item that has a fault. -/
theorem loopUntil
    {step : First → PUnit → Logged Fault (ForInStep PUnit)}
    {fault? : First → Option Fault}
    (gives :
      ∀ item,
        Gives (step item ()) ((fault? item).elim (.ok (.yield ())) .error))
    (items : List First) :
    Gives (forIn items () step)
      ((items.findSome? fault?).elim (.ok ()) .error) := by
  induction items with
  | nil =>
      exact value ()
  | cons item items inductionHypothesis =>
      have givesFirst := gives item
      rw [List.forIn_cons, List.findSome?_cons]
      cases told : fault? item with
      | none =>
          rw [told] at givesFirst
          exact givesFirst.andThen inductionHypothesis
      | some reason =>
          rw [told] at givesFirst
          exact givesFirst.stop _

/-- Renaming the fault of work renames the fault of its outcome. -/
theorem adapt
    {Other : Type}
    {work : Logged Fault First}
    {outcome : Except Fault First}
    (gives : Gives work outcome)
    (rename : Fault → Other) :
    Gives (ExceptT.adapt rename work) (outcome.mapError rename) := by
  intro records
  exact congrArg (Except.mapError rename) (gives records)

end Gives

/-- What work gives does not depend on what was logged before. -/
def Steady (work : Logged Fault First) : Prop :=
  Gives work work.result.1

namespace Steady

theorem of_gives
    {work : Logged Fault First}
    {outcome : Except Fault First}
    (gives : Gives work outcome) :
    Steady work := by
  unfold Steady
  rw [gives.result]
  exact gives

theorem bind
    {work : Logged Fault First}
    {next : First → Logged Fault Second}
    (steady : Steady work)
    (steadyNext : ∀ first, Steady (next first)) :
    Steady (work >>= next) :=
  of_gives (Gives.bind steady fun first _ => steadyNext first)

end Steady

/-- Steady work gives after other work what it gives on its own. -/
theorem result_bind
    (work : Logged Fault First)
    {next : First → Logged Fault Second}
    (steady : ∀ first, Steady (next first)) :
    (work >>= next).result.1 =
      work.result.1 >>= fun first => (next first).result.1 := by
  obtain ⟨later, ran⟩ :
      ∃ later, StateT.run (ExceptT.run work) [] = (work.result.1, later) :=
    ⟨_, Prod.ext rfl rfl⟩
  rw [Logged.result, ExceptT.run_bind, StateT.run_bind, ran]
  cases work.result.1 with
  | error fault =>
      rfl
  | ok first =>
      exact steady first later

end KeyAudit.Logged
