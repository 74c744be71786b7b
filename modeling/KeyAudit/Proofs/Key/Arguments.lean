import KeyAudit.Proofs.Class.Descriptor
import KeyAudit.Proofs.Frame.Moves
import KeyAudit.Proofs.Frame.Paths
import KeyAudit.Proofs.Key.Allowed

namespace KeyAudit

/-!
# The word that is looked up is the word of the argument

A call takes the words of its arguments off the stack, argument by argument.  In
an analysed method every reached call has a well-formed descriptor and finds all
these words above its receiver.  The word that is looked up for a key is the
first one of the argument that the call site names.
-/

namespace FieldType

variable {Word : Type}

/-- The words of several values, value by value. -/
def portions : List FieldType → List Word → List (List Word)
  | [], _ => []
  | type :: types, words =>
      words.take type.words :: portions types (words.drop type.words)

/-- Behind the first value there are the words of the others. -/
theorem length_drop_words
    {type : FieldType}
    {types : List FieldType}
    {words : List Word}
    (total : words.length = totalWords (type :: types)) :
    (words.drop type.words).length = totalWords types := by
  rw [List.length_drop, total, totalWords, Nat.add_sub_cancel_left]

/-- The portions follow each other and leave out nothing. -/
theorem flatten_portions
    {types : List FieldType}
    {words : List Word}
    (total : words.length = totalWords types) :
    (portions types words).flatten = words := by
  induction types generalizing words with
  | nil =>
      exact (List.length_eq_zero_iff.mp total).symm
  | cons type types inductionHypothesis =>
      rw [portions, List.flatten_cons,
        inductionHypothesis (length_drop_words total), List.take_append_drop]

/-- Each value has as many words as its type says. -/
theorem map_length_portions
    {types : List FieldType}
    {words : List Word}
    (total : words.length = totalWords types) :
    (portions types words).map List.length = types.map FieldType.words := by
  induction types generalizing words with
  | nil =>
      rfl
  | cons type types inductionHypothesis =>
      have enough : type.words ≤ words.length := by
        rw [total]
        exact Nat.le_add_right ..
      rw [portions, List.map_cons, List.map_cons,
        inductionHypothesis (length_drop_words total), List.length_take,
        Nat.min_eq_left enough]

/-- A value begins behind the words of the values before it. -/
theorem head_portion
    {types : List FieldType}
    {words : List Word}
    (total : words.length = totalWords types)
    {position : Nat}
    (inside : position < types.length) :
    ∃ word rest,
      (portions types words)[position]? = some (word :: rest) ∧
        words[totalWords (types.take position)]? = some word := by
  induction types generalizing words position with
  | nil =>
      cases inside
  | cons type types inductionHypothesis =>
      cases position with
      | zero =>
          cases words with
          | nil =>
              have someWord := Extractor.words_pos type
              rw [List.length_nil, totalWords] at total
              omega
          | cons word rest =>
              obtain ⟨count, isCount⟩ :=
                Nat.exists_eq_add_one_of_ne_zero
                  (Nat.ne_of_gt (Extractor.words_pos type))
              refine ⟨word, rest.take count, ?_, rfl⟩
              rw [portions, isCount]
              rfl
      | succ position =>
          obtain ⟨word, rest, atPosition, atWord⟩ :=
            inductionHypothesis (length_drop_words total)
              (Nat.lt_of_succ_lt_succ inside)
          refine ⟨word, rest, atPosition, ?_⟩
          rw [List.getElem?_drop] at atWord
          exact atWord

end FieldType

/-- The number of words under the arguments that a call takes as well. -/
def Instruction.receivers (instruction : Instruction) : Nat :=
  if instruction.opcode.mnemonic ∈ ["invokestatic", "invokedynamic"] then 0
  else 1

section Calls

theorem Opcode.table_invocations :
    (Opcode.table.all fun opcode => decide
      (opcode.kind = .invoke →
        opcode.layout ∈ [.short, .interfaceCall, .dynamicCall] ∧
          (opcode.isStaticCall = true ↔
            opcode.mnemonic ∈ ["invokestatic", "invokedynamic"]))) = true := by
  decide +kernel

variable {instruction : Instruction}

/-- A decoded invocation names a member. -/
theorem Instruction.Fits.member_of_invoke
    (fits : instruction.Fits)
    (invokes : instruction.kind = .invoke) :
    ∃ member, instruction.operand = .member member := by
  have row :=
    of_decide_eq_true (List.all_eq_true.mp Opcode.table_invocations _ fits.row)
  have kind : instruction.opcode.kind = .invoke := invokes
  have accepts := fits.accepts
  rw [Opcode.Accepts, kind] at accepts
  have layout := (row invokes).1
  simp only [List.mem_cons, List.not_mem_nil, or_false] at layout
  rcases layout with isLayout | isLayout | isLayout <;>
    simpa only [isLayout] using accepts

theorem Instruction.Fits.receivers_eq
    (fits : instruction.Fits)
    (invokes : instruction.kind = .invoke) :
    instruction.receivers =
      if instruction.opcode.isStaticCall then 0 else 1 := by
  have row :=
    of_decide_eq_true (List.all_eq_true.mp Opcode.table_invocations _ fits.row)
  simp only [Instruction.receivers, (row invokes).2]

/-- A call that has an effect has a method type and finds all its words. -/
theorem Frame.call_of_after
    (fits : instruction.Fits)
    (invokes : instruction.kind = .invoke)
    {member : Member}
    (operand : instruction.operand = .member member)
    {frame next : Frame}
    (stepped : frame.after instruction = .ok next) :
    ∃ type,
      MethodType.parse member.descriptor = .ok type ∧
        type.argumentWords + instruction.receivers ≤ frame.depth := by
  have kind : instruction.opcode.kind = .invoke := invokes
  unfold after at stepped
  simp only [kind, operand] at stepped
  obtain ⟨type, typed, exchanged⟩ := Outcome.bind_eq_ok.mp stepped
  rw [Frame.typed, Outcome.mapError_eq_ok] at typed
  refine ⟨type, typed, ?_⟩
  rw [← fits.receivers_eq invokes] at exchanged
  rw [exchange, MethodFrames.checked_eq_ok, drop] at exchanged
  obtain ⟨_, dropped, _⟩ := Outcome.map_eq_ok.mp exchanged
  obtain ⟨⟨rest, taken⟩, popped, _⟩ := Outcome.map_eq_ok.mp dropped
  obtain ⟨below, shape, count, _⟩ := pop_eq_ok.mp popped
  rw [← count, depth, shape, List.length_append]
  exact Nat.le_add_left ..

end Calls

/--
The arguments of a call are the uppermost words of the stack, one portion after
the other and above the receiver.  The first word of each stands where it is
looked up.
-/
structure Frame.HoldsArguments
    (frame : Frame)
    (type : MethodType)
    (receivers : Nat)
    (arguments : List (List Value)) : Prop where
  popped :
    ∃ below,
      frame.pop type.argumentWords = .ok (below, arguments.flatten) ∧
        receivers ≤ below.depth
  widths :
    arguments.map List.length = type.parameters.map FieldType.words
  first :
    ∀ {position : Nat},
      position < type.parameters.length →
      ∃ offset word rest,
        type.argumentOffset? position = some offset ∧
          arguments[position]? = some (word :: rest) ∧
            receivers ≤ frame.depth - type.argumentWords + offset ∧
              frame.depth - type.argumentWords + offset < frame.depth ∧
                frame.stack[frame.depth - type.argumentWords + offset]? =
                  some word

/-- A stack that is deep enough holds the arguments of a call. -/
theorem Frame.holdsArguments_of_deep
    {frame : Frame}
    {type : MethodType}
    {receivers : Nat}
    (deep : type.argumentWords + receivers ≤ frame.depth) :
    frame.HoldsArguments type receivers
      (FieldType.portions type.parameters
        (frame.stack.drop (frame.depth - type.argumentWords))) := by
  have total :
      (frame.stack.drop (frame.depth - type.argumentWords)).length =
        FieldType.totalWords type.parameters := by
    change _ = type.argumentWords
    rw [List.length_drop]
    change frame.depth - (frame.depth - type.argumentWords) = _
    omega
  refine
    { popped := ?_
      widths := FieldType.map_length_portions total
      first := ?_ }
  · rw [FieldType.flatten_portions total]
    refine
      ⟨⟨frame.locals, frame.stack.take (frame.depth - type.argumentWords)⟩,
        ?_, ?_⟩
    · unfold pop
      rw [if_neg (by omega)]
    · change receivers ≤ (frame.stack.take _).length
      rw [List.length_take]
      change receivers ≤ min (frame.depth - type.argumentWords) frame.depth
      omega
  · intro position inside
    obtain ⟨word, rest, atPosition, atWord⟩ :=
      FieldType.head_portion total inside
    rw [List.getElem?_drop] at atWord
    have onStack := (List.getElem?_eq_some_iff.mp atWord).1
    exact
      ⟨type.wordsBefore position, word, rest,
        MethodType.argumentOffset?_of_lt inside, atPosition, by omega, onStack,
        atWord⟩

namespace Extractor

variable {extractor : Extractor}
variable {type : MethodType}
variable {site : CallSite}
variable {frame : Frame}
variable {position : Nat}

/-- An argument that is no string, or none at all, is no key. -/
theorem keyOfCall?_of_other
    (argument : site.argument = position)
    (notString : type.parameters[position]? ≠ some .string) :
    extractor.keyOfCall? type site frame = .ok none := by
  unfold keyOfCall?
  by_cases outside : type.parameters.length ≤ position
  · rw [argument, if_pos (by omega)]
    rfl
  · have present := List.getElem?_eq_getElem (Nat.not_le.mp outside)
    rw [argument, if_neg (by omega), parameter_eq_ok.mpr present]
    refine Outcome.bind_eq_ok.mpr ⟨_, rfl, ?_⟩
    rw [present] at notString
    rw [if_pos fun isString => notString (congrArg some isString)]
    rfl

/-- The key of a call comes from the first word of the argument that its site names. -/
theorem keyOfCall?_eq
    {receivers : Nat}
    {arguments : List (List Value)}
    (holds : frame.HoldsArguments type receivers arguments)
    (argument : site.argument = position) :
    extractor.keyOfCall? type site frame =
      .ok (if type.parameters[position]? = some .string then
          extractor.keyOfWord? (arguments[position]?.bind List.head?)
        else
          none) := by
  by_cases isString : type.parameters[position]? = some .string
  · have inside := (List.getElem?_eq_some_iff.mp isString).1
    obtain ⟨_, popped, _⟩ := holds.popped
    obtain ⟨_, shape, count, _⟩ := Frame.pop_eq_ok.mp popped
    have enough : type.argumentWords ≤ frame.depth := by
      rw [← count, Frame.depth, shape, List.length_append]
      exact Nat.le_add_left ..
    obtain ⟨offset, word, rest, isOffset, atPosition, _, _, atWord⟩ :=
      holds.first inside
    cases (MethodType.argumentOffset?_of_lt inside).symm.trans isOffset
    have sameIndex :
        frame.depth + type.wordsBefore position - type.argumentWords =
          frame.depth - type.argumentWords + type.wordsBefore position := by
      omega
    rw [keyOfCall?_of_string enough argument isString, if_pos isString,
      sameIndex, atWord, atPosition]
    rfl
  · rw [if_neg isString, keyOfCall?_of_other argument isString]

section Invocations

variable {instruction : Instruction}
variable {member : Member}

/-- A call that is dynamic or at no call site passes no key. -/
theorem keyAt?_of_unmatched
    (operand : instruction.operand = .member member)
    (unmatched :
      instruction.opcode.layout = .dynamicCall ∨
        extractor.sites.find? member = none) :
    extractor.keyAt? instruction frame = .ok none := by
  unfold keyAt?
  simp only [operand, Operand.member?]
  rcases unmatched with isDynamic | notFound
  · rw [if_pos isDynamic]
  · split
    · rfl
    · simp [notFound]

/-- A call at a call site is judged by the type of the called method. -/
theorem keyAt?_of_matched
    (operand : instruction.operand = .member member)
    (parsed : MethodType.parse member.descriptor = .ok type)
    (notDynamic : instruction.opcode.layout ≠ .dynamicCall)
    (found : extractor.sites.find? member = some site) :
    extractor.keyAt? instruction frame =
      extractor.keyOfCall? type site frame := by
  have isRead : MethodType.read? member.descriptor = some type :=
    MethodType.read?_eq_some.mpr (MethodType.parse_eq_ok.mp parsed)
  unfold keyAt?
  simp only [operand, Operand.member?, found, isRead]
  rw [if_neg notDynamic]

end Invocations

/--
In an analysed method every reachable invocation is listed with its frame.  Its
descriptor is well formed, the arguments lie on the stack above the receiver, and
the key is looked up in the first word of the argument that the call site names.
So no lookup fails unless a call site names a negative position.
-/
theorem invocations_read_popped_arguments
    {pool : Pool}
    {method : Method}
    {limit : Nat}
    {result : MethodFrames}
    (analysed : MethodFrames.ofMethod pool method limit = .ok result) :
    (∀ {index : Nat} {instruction},
      result.flow.graph.LeadsTo 0 index →
      result.flow.instructions[index]? = some instruction →
      instruction.kind = .invoke →
      ∃ frame,
        result.frames[index]? = some (some frame) ∧
          (instruction, frame) ∈ result.invocations) ∧
      (∀ {instruction frame},
        (instruction, frame) ∈ result.invocations →
        ∃ member type arguments,
          instruction.operand = .member member ∧
            MethodType.parse member.descriptor = .ok type ∧
              type.argumentWords + instruction.receivers ≤ frame.depth ∧
                frame.HoldsArguments type instruction.receivers arguments ∧
                  ∀ extractor : Extractor,
                    (instruction.opcode.layout = .dynamicCall ∨
                        extractor.sites.find? member = none →
                      extractor.keyAt? instruction frame = .ok none) ∧
                      ∀ {site} {position : Nat},
                        instruction.opcode.layout ≠ .dynamicCall →
                        extractor.sites.find? member = some site →
                        site.argument = position →
                        extractor.keyAt? instruction frame =
                          .ok (if type.parameters[position]? = some .string then
                              extractor.keyOfWord?
                                (arguments[position]?.bind List.head?)
                            else
                              none)) ∧
        ∀ extractor : Extractor,
          (∀ {member site},
            extractor.sites.find? member = some site →
            0 ≤ site.argument) →
          ∃ keys, extractor.keysIn result = .ok keys := by
  obtain ⟨body, instructions, flow, run, _, decoded, built, solved, converged,
    rfl⟩ := MethodFrames.ofMethod_eq_ok analysed
  have consecutive := Code.decode_consecutive decoded
  have closed := CodeFlow.build_closed consecutive built
  obtain rfl := CodeFlow.build_instructions built
  have nonempty := Code.decode_nonempty decoded
  have facts
      {index : Nat}
      {frame : Frame} :=
    @MethodFrames.getElem?_facts flow body.maxLocals run index frame
  refine ⟨?_, ?_, fun extractor natural => keysIn_ok_of_natural natural _⟩
  · rintro index instruction ⟨path, isPath⟩ present invokes
    obtain ⟨_, _, frame, reached, _⟩ :=
      MethodFrames.path_from_entry_below closed nonempty solved converged isPath
    have hasFrame := facts.mpr reached
    exact
      ⟨frame, hasFrame,
        mem_invocations.mpr ⟨invokes, index, present, hasFrame⟩⟩
  · intro instruction frame listed
    obtain ⟨invokes, index, present, hasFrame⟩ := mem_invocations.mp listed
    have fits := consecutive.fits (List.mem_of_getElem? present)
    obtain ⟨next, stepped, _⟩ :=
      MethodFrames.along_below
        (MethodFrames.solution_of_converged closed nonempty solved converged)
        present (facts.mp hasFrame) (.refl frame)
    obtain ⟨member, operand⟩ := fits.member_of_invoke invokes
    obtain ⟨type, parsed, deep⟩ :=
      Frame.call_of_after fits invokes operand stepped
    have holds := Frame.holdsArguments_of_deep deep
    refine ⟨member, type, _, operand, parsed, deep, holds, ?_⟩
    intro extractor
    refine ⟨keyAt?_of_unmatched operand, ?_⟩
    intro site position notDynamic found argument
    rw [keyAt?_of_matched operand parsed notDynamic found,
      keyOfCall?_eq holds argument]

/-- Code that calls an instance method with a number of two words before the key. -/
def delayedCode : Bytes :=
  [0x2A, 0x09, 0x12, 0x02, 0xB6, 0x00, 0x03, 0xB1]

/-- The literal and the method that the code names. -/
def delayedPool : Pool :=
  ⟨[none, some (.utf8 "menu.title"), some (.string 1),
    some (.methodRef 4 6), some (.classRef 5), some (.utf8 "Menu"),
    some (.nameAndType 7 8), some (.utf8 "showLater"),
    some (.utf8 "(JLjava/lang/String;)V")]⟩

/-- A method with this code. -/
def delayedMethod : Method :=
  ⟨"Menu", "open", "()V", 0, some ⟨4, 1, delayedCode, []⟩⟩

/-- The extractor of calls that take the key as their second argument. -/
def delayedExtractor : Extractor :=
  ⟨.ofList [⟨"Menu", "showLater", [], 1⟩], [], 100⟩

set_option maxRecDepth 8000 in
/-- The key is the fourth word of the stack, behind the receiver and the number. -/
theorem invocations_read_popped_arguments_delayed :
    ∃ result instruction frame arguments,
      MethodFrames.ofMethod delayedPool delayedMethod 100 = .ok result ∧
        (instruction, frame) ∈ result.invocations ∧
          frame.stack =
              [.unknown, .unknown, .unknown, .literal "menu.title"] ∧
            instruction.receivers = 1 ∧
              frame.HoldsArguments ⟨[.primitive .long, .string], none⟩ 1
                  arguments ∧
                delayedExtractor.keyAt? instruction frame =
                    .ok (some "menu.title") ∧
                  ∃ keys, delayedExtractor.keysIn result = .ok keys := by
  obtain ⟨result, instruction, frame, site, analysed, listed, stack, receives,
      operand, layout, found, argument⟩ :
      ∃ result instruction frame site,
        MethodFrames.ofMethod delayedPool delayedMethod 100 = .ok result ∧
          (instruction, frame) ∈ result.invocations ∧
            frame.stack =
                [.unknown, .unknown, .unknown, .literal "menu.title"] ∧
              instruction.receivers = 1 ∧
                instruction.operand =
                    .member ⟨"Menu", "showLater", "(JLjava/lang/String;)V"⟩ ∧
                  instruction.opcode.layout = .short ∧
                    delayedExtractor.sites.find?
                        ⟨"Menu", "showLater", "(JLjava/lang/String;)V"⟩ =
                          some site ∧
                      site.argument = (1 : Nat) :=
    ⟨_, _, _, _, rfl, .head _, rfl, rfl, rfl, rfl, rfl, rfl⟩
  obtain ⟨_, each, keysTold⟩ := invocations_read_popped_arguments analysed
  obtain ⟨_, type, arguments, sameOperand, parsed, _, holds, told⟩ := each listed
  cases operand.symm.trans sameOperand
  obtain rfl : type = ⟨[.primitive .long, .string], none⟩ := by
    cases parsed
    rfl
  rw [receives] at holds
  obtain ⟨_, word, rest, isOffset, atPosition, _, _, atWord⟩ :=
    holds.first (show 1 < 2 by decide)
  cases isOffset
  have isKey : word = .literal "menu.title" := by
    rw [Frame.depth, stack] at atWord
    cases atWord
    rfl
  have keyTold :=
    (told delayedExtractor).2 (by rw [layout]; decide) found argument
  rw [atPosition, isKey] at keyTold
  refine
    ⟨result, instruction, frame, arguments, analysed, listed, stack, receives,
      holds, keyTold, keysTold delayedExtractor ?_⟩
  intro member other isFound
  have isSite := CallSiteTable.mem_ofList (CallSiteTable.mem_of_find? isFound)
  cases List.mem_singleton.mp isSite
  decide

end Extractor

end KeyAudit
