import KeyAudit.Proofs.Code.Complete
import KeyAudit.Proofs.Key.Extraction
import KeyAudit.Proofs.Key.Table

namespace KeyAudit

/-!
# Extractors of allow lists

The call sites of allow lists all name the first argument.  So looking a key up
never fails: the keys of a method are told, or its code cannot be analysed.
-/

namespace CallSite

theorem argument_of_mem
    {owners methods : List Text}
    {site : CallSite}
    (member : site ∈ ofAllowLists owners methods) :
    site.argument = 0 := by
  simp only [ofAllowLists, builtin, wrappers, List.mem_append,
    List.mem_map, List.mem_flatMap] at member
  rcases member with ⟨_, _, rfl⟩ | ⟨_, _, _, _, rfl⟩ <;> rfl

end CallSite

namespace CallSiteTable

theorem mem_of_find?
    {table : CallSiteTable}
    {member : Member}
    {site : CallSite}
    (found : table.find? member = some site) :
    site ∈ table.toList := by
  unfold find? at found
  split at found
  · cases found
  · rename_i sites isGroup
    obtain ⟨before, after, shape, _⟩ := List.lookup_eq_some_iff.mp isGroup
    have isSite := List.mem_of_find?_eq_some found
    rw [toList, shape]
    exact List.mem_flatMap.mpr
      ⟨_, List.mem_append_right _ List.mem_cons_self, isSite⟩

end CallSiteTable

namespace Extractor

section Lookups

variable {extractor : Extractor}
variable {type : MethodType}
variable {site : CallSite}
variable {frame : Frame}

/-- The key of a call site that names a proper position is told. -/
theorem keyOfCall?_ok
    {position : Nat}
    (argument : site.argument = position) :
    ∃ key, extractor.keyOfCall? type site frame = .ok key := by
  unfold keyOfCall?
  by_cases outside : type.parameters.length ≤ position
  · rw [argument, if_pos (by omega)]
    exact ⟨none, rfl⟩
  · have inside := Nat.not_le.mp outside
    have present := List.getElem?_eq_getElem inside
    have offset := MethodType.argumentOffset?_of_lt inside
    rw [argument, if_neg (by omega), parameter_eq_ok.mpr present]
    by_cases isString : type.parameters[position] = .string
    · simp only [offset, isString]
      split
      · exact ⟨none, rfl⟩
      · exact ⟨_, rfl⟩
    · refine ⟨none, Outcome.bind_eq_ok.mpr ⟨_, rfl, ?_⟩⟩
      rw [if_pos isString]
      rfl

theorem words_pos
    (parameter : FieldType) :
    0 < parameter.words := by
  unfold FieldType.words
  split <;> decide

/-- The word of an argument is looked up at a position within the stack. -/
theorem word_lt_depth
    {offset : Nat}
    (counted : type.argumentOffset? site.argument = some offset)
    (enough : type.argumentWords ≤ frame.depth + offset) :
    frame.depth + offset - type.argumentWords < frame.depth := by
  unfold MethodType.argumentOffset? at counted
  split at counted
  · rename_i inside
    cases counted
    have present :=
      List.getElem?_eq_getElem
        (show site.argument.toNat < type.parameters.length by omega)
    have total := argumentWords_eq present
    have someWord := words_pos type.parameters[site.argument.toNat]
    omega
  · cases counted

end Lookups

section Keys

variable {extractor : Extractor}

/-- A call fails to tell its key only if its call site names a negative position. -/
theorem keyAt?_ok
    {instruction : Instruction}
    (natural :
      ∀ {member site},
        instruction.operand = .member member →
        extractor.sites.find? member = some site →
        0 ≤ site.argument)
    (frame : Frame) :
    ∃ key, extractor.keyAt? instruction frame = .ok key := by
  unfold keyAt?
  cases operand : instruction.operand with
  | member member =>
      simp only [Operand.member?]
      split
      · exact ⟨none, rfl⟩
      · split
        · rename_i found
          obtain ⟨position, argument⟩ :=
            Int.eq_ofNat_of_zero_le (natural operand found)
          exact keyOfCall?_ok argument
        · exact ⟨none, rfl⟩
  | _ =>
      exact ⟨none, rfl⟩

/-- The keys of frames are told if no call site names a negative position. -/
theorem keysIn_ok_of_natural
    (natural :
      ∀ {member site},
        extractor.sites.find? member = some site →
        0 ≤ site.argument)
    (frames : MethodFrames) :
    ∃ keys, extractor.keysIn frames = .ok keys := by
  have each :
      ∀ call ∈ frames.invocations,
        ∃ key, extractor.keyAt? call.1 call.2 = .ok key ∧ True := by
    intro call _
    obtain ⟨key, told⟩ := keyAt?_ok (fun _ found => natural found) call.2
    exact ⟨key, told, trivial⟩
  obtain ⟨keys, told, _⟩ := Outcome.mapM_ok (fun _ _ => True) each
  refine ⟨Text.sortedDistinct (keys.filterMap id), ?_⟩
  exact Outcome.bind_eq_ok.mpr ⟨keys, told, rfl⟩

end Keys

section Methods

variable {owners methods : List Text}
variable {qualifier : Text}

theorem keysIn_ok
    (frames : MethodFrames) :
    ∃ keys,
      (ofAllowLists owners methods qualifier).keysIn frames = .ok keys := by
  apply keysIn_ok_of_natural
  intro member site found
  have isSite := CallSiteTable.mem_ofList (CallSiteTable.mem_of_find? found)
  exact Int.le_of_eq (CallSite.argument_of_mem isSite).symm

/-- The keys of a method are told unless its code cannot be analysed. -/
theorem keysOfMethod_cases
    (pool : Pool)
    (method : Method) :
    (∃ keys,
        (ofAllowLists owners methods qualifier).keysOfMethod pool method =
          .ok keys) ∨
      ∃ body fault,
        method.body = some body ∧
          MethodFrames.ofMethod pool method
              (ofAllowLists owners methods qualifier).limit = .error fault ∧
            (ofAllowLists owners methods qualifier).keysOfMethod pool
              method = .error (.method fault) := by
  unfold keysOfMethod
  split
  · exact Or.inl ⟨[], rfl⟩
  · rename_i body hasBody
    cases analysed :
        MethodFrames.ofMethod pool method
          (ofAllowLists owners methods qualifier).limit with
    | error fault =>
        exact Or.inr ⟨body, fault, hasBody, rfl, rfl⟩
    | ok frames =>
        obtain ⟨keys, told⟩ := keysIn_ok frames
        exact Or.inl ⟨keys, told⟩

end Methods

/--
Nothing that is looked up on the way to the keys of a method is missing: the
flow leads from instruction to instruction, each instruction is complete, and
the word of an argument is on the stack.
-/
structure MissesNothing
    (extractor : Extractor)
    (pool : Pool)
    (method : Method) : Prop where
  flow :
    ∀ {flow},
      CodeFlow.ofMethod pool method = .ok flow →
      flow.graph.Closed ∧
        ∀ instruction ∈ flow.instructions, instruction.Complete
  word :
    ∀ {frames},
      MethodFrames.ofMethod pool method extractor.limit = .ok frames →
      ∀ {instruction frame member type site offset},
        (instruction, frame) ∈ frames.invocations →
        instruction.operand = .member member →
        MethodType.read? member.descriptor = some type →
        extractor.sites.find? member = some site →
        type.argumentOffset? site.argument = some offset →
        type.argumentWords ≤ frame.depth + offset →
        frame.depth + offset - type.argumentWords < frame.depth

theorem missesNothing
    (extractor : Extractor)
    (pool : Pool)
    (method : Method) :
    extractor.MissesNothing pool method where
  flow := CodeFlow.ofMethod_complete
  word := by
    intro frames _ instruction frame member type site offset _ _ _ _
    exact word_lt_depth

end Extractor

end KeyAudit
