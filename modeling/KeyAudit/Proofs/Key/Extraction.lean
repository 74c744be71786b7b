import KeyAudit.Key.Extract
import KeyAudit.Proofs.Machine.Executions
import KeyAudit.Proofs.Text.Sorted

namespace KeyAudit

/-!
# The keys that executions pass

The keys of a method are those that its executions pass at the calls that take
one: a literal is told there exactly when all executions that come to the call
pass it, and some execution comes there.
-/

open Machine

theorem MethodType.argumentOffset?_of_lt
    {type : MethodType}
    {position : Nat}
    (inside : position < type.parameters.length) :
    type.argumentOffset? position = some (type.wordsBefore position) := by
  unfold argumentOffset?
  rw [if_pos (by omega), Int.toNat_natCast]

/-- An analysis of a method gives the facts of a converged run on its decoded code. -/
theorem MethodFrames.ofMethod_eq_ok
    {pool : Pool}
    {method : Method}
    {limit : Nat}
    {result : MethodFrames}
    (analysed : ofMethod pool method limit = .ok result) :
    ∃ body instructions flow run,
      method.body = some body ∧
        Code.decode body.code pool = .ok instructions ∧
          CodeFlow.build method.label instructions body.handlers =
              .ok flow ∧
            (problem flow body.maxLocals).solve .ranked limit = .ok run ∧
              run.converged = true ∧
                result = ⟨flow, run.facts.toList, run.visits⟩ := by
  obtain ⟨flow, built, analysed⟩ := Outcome.bind_eq_ok.mp analysed
  rw [Outcome.mapError_eq_ok] at built
  unfold CodeFlow.ofMethod at built
  cases hasBody : method.body with
  | none =>
      simp only [hasBody] at built
      cases built
  | some body =>
      simp only [hasBody] at built
      simp only [hasBody, Outcome.mapError_eq_ok] at analysed
      obtain ⟨instructions, decoded, built⟩ := Outcome.bind_eq_ok.mp built
      obtain ⟨run, solved, converged, rfl⟩ := ofFlow_eq_ok.mp analysed
      exact
        ⟨body, instructions, flow, run, rfl, decoded, built, solved,
          converged, rfl⟩

namespace Extractor

/-- The first word of an argument under the words of the arguments after it. -/
def Passes
    (type : MethodType)
    (position : Nat)
    (memory : Memory)
    (word : Machine.Word) : Prop :=
  ∃ below before after,
    memory.stack = below ++ before ++ word :: after ∧
      before.length = words ((type.parameters.take position).map .ofField) ∧
        after.length =
          words ((type.parameters.drop (position + 1)).map .ofField)

/-- The opcodes that call a method by its owner: all but invokedynamic. -/
def methodCalls : List Nat :=
  [0xB6, 0xB7, 0xB8, 0xB9]

/-- At an index a program calls a method that takes a key at a position. -/
inductive TakesKey
    (extractor : Extractor)
    (program : Program)
    (index : Nat)
    (type : MethodType)
    (position : Nat) : Prop where
  | call
      {instruction : Instruction}
      {member : Member}
      {site : CallSite}
      (present : program.instructions[index]? = some instruction)
      (invokes : instruction.opcode.code ∈ methodCalls)
      (operand : instruction.operand = .member member)
      (typed : MethodType.read? member.descriptor = some type)
      (found : extractor.sites.find? member = some site)
      (argument : site.argument = position)
      (isString : type.parameters[position]? = some .string)

/--
Some execution of a program comes to a call that takes a key, and all that come
there pass the literal of the key.
-/
def UsesKey
    (extractor : Extractor)
    (program : Program)
    (key : Text) : Prop :=
  ∃ index type position text,
    TakesKey extractor program index type position ∧
      (∃ memory, program.Reaches index memory) ∧
        (∀ {memory},
          program.Reaches index memory →
          Passes type position memory (.literal text)) ∧
          Key.ofLiteral? extractor.qualifier text = some key

section Calls

variable {extractor : Extractor}
variable {key : Text}

theorem parameter_eq_ok
    {type : MethodType}
    {position : Nat}
    {parameter : FieldType} :
    Extractor.parameter type position = .ok parameter ↔
      type.parameters[position]? = some parameter := by
  have natural : ¬(position : Int) < 0 := by
    omega
  simp only [Extractor.parameter, if_neg natural, Int.toNat_natCast]
  cases type.parameters[position]? <;> simp

theorem keyOfWord?_eq_some
    {word : Option Value} :
    extractor.keyOfWord? word = some key ↔
      ∃ text,
        word = some (.literal text) ∧
          Key.ofLiteral? extractor.qualifier text = some key := by
  unfold keyOfWord?
  split
  · simp
  · rename_i notLiteral
    simp only [reduceCtorEq, false_iff, not_exists, not_and]
    intro text isLiteral
    exact (notLiteral text isLiteral).elim

/-- Only an argument that is a string may be a key. -/
theorem string_of_keyOfCall?
    {type : MethodType}
    {site : CallSite}
    {frame : Frame}
    (success : extractor.keyOfCall? type site frame = .ok (some key)) :
    ∃ position : Nat,
      site.argument = position ∧
        type.parameters[position]? = some .string := by
  unfold keyOfCall? at success
  split at success
  · cases success
  · obtain ⟨parameter, isParameter, success⟩ :=
      Outcome.bind_eq_ok.mp success
    split at success
    · cases success
    · rename_i isString
      simp only [ne_eq, Decidable.not_not] at isString
      subst isString
      -- A negative position has no offset, whichever parameter it counts from.
      by_cases negative : site.argument < 0
      · have noOffset : type.argumentOffset? site.argument = none := by
          unfold MethodType.argumentOffset?
          rw [if_neg (by omega)]
        simp only [noOffset] at success
        cases success
      · obtain ⟨position, argument⟩ :=
          Int.eq_ofNat_of_zero_le (Int.not_lt.mp negative)
        rw [argument] at isParameter
        exact ⟨position, argument, parameter_eq_ok.mp isParameter⟩

theorem keyOfCall?_of_string
    {type : MethodType}
    {site : CallSite}
    {frame : Frame}
    (enough : type.argumentWords ≤ frame.depth)
    {position : Nat}
    (argument : site.argument = position)
    (isString : type.parameters[position]? = some .string) :
    extractor.keyOfCall? type site frame =
      .ok (extractor.keyOfWord?
        frame.stack[frame.depth + type.wordsBefore position -
          type.argumentWords]?) := by
  have inside : position < type.parameters.length :=
    (List.getElem?_eq_some_iff.mp isString).1
  have offset := MethodType.argumentOffset?_of_lt inside
  unfold keyOfCall?
  rw [argument, if_neg (by omega), parameter_eq_ok.mpr isString]
  simp only [offset]
  rw [if_neg (by omega)]
  rfl

/-- A call passes a key when the word of the argument is known to be its literal. -/
theorem keyOfCall?_eq_some
    {type : MethodType}
    {site : CallSite}
    {frame : Frame}
    (enough : type.argumentWords ≤ frame.depth) :
    extractor.keyOfCall? type site frame = .ok (some key) ↔
      ∃ (position : Nat) (text : Text),
        site.argument = position ∧
          type.parameters[position]? = some .string ∧
            frame.stack[frame.depth + type.wordsBefore position -
                type.argumentWords]? = some (.literal text) ∧
              Key.ofLiteral? extractor.qualifier text = some key := by
  constructor
  · intro success
    obtain ⟨position, argument, isString⟩ := string_of_keyOfCall? success
    rw [keyOfCall?_of_string enough argument isString, Except.ok.injEq]
      at success
    obtain ⟨text, known, shaped⟩ := keyOfWord?_eq_some.mp success
    exact ⟨position, text, argument, isString, known, shaped⟩
  · rintro ⟨position, text, argument, isString, known, shaped⟩
    rw [keyOfCall?_of_string enough argument isString, Except.ok.injEq]
    exact keyOfWord?_eq_some.mpr ⟨text, known, shaped⟩

theorem keyAt?_eq_some
    {instruction : Instruction}
    {frame : Frame} :
    extractor.keyAt? instruction frame = .ok (some key) ↔
      instruction.opcode.layout ≠ .dynamicCall ∧
        ∃ member type site,
          instruction.operand = .member member ∧
            MethodType.read? member.descriptor = some type ∧
              extractor.sites.find? member = some site ∧
                extractor.keyOfCall? type site frame =
                  .ok (some key) := by
  unfold keyAt?
  cases operand : instruction.operand with
  | member member =>
      simp only [Operand.member?, Operand.member.injEq, exists_and_left,
        exists_eq_left']
      split
      · simp_all
      · rename_i notDynamic
        cases typed : MethodType.read? member.descriptor <;>
          cases found : extractor.sites.find? member <;>
            simp [notDynamic]
  | _ =>
      simp [Operand.member?]

theorem mem_invocations
    {frames : MethodFrames}
    {instruction : Instruction}
    {frame : Frame} :
    (instruction, frame) ∈ frames.invocations ↔
      instruction.kind = .invoke ∧
        ∃ index : Nat,
          frames.flow.instructions[index]? = some instruction ∧
            frames.frames[index]? = some (some frame) := by
  unfold MethodFrames.invocations
  rw [List.mem_filterMap]
  constructor
  · rintro ⟨⟨other, fact⟩, member, kept⟩
    obtain ⟨index, present⟩ := List.mem_iff_getElem?.mp member
    obtain ⟨inInstructions, inFrames⟩ :=
      List.getElem?_zip_eq_some.mp present
    simp only [Option.ite_none_right_eq_some, Option.map_eq_some_iff,
      Prod.mk.injEq] at kept
    obtain ⟨invokes, _, rfl, rfl, rfl⟩ := kept
    exact ⟨invokes, index, inInstructions, inFrames⟩
  · rintro ⟨invokes, index, inInstructions, inFrames⟩
    refine ⟨(instruction, some frame), ?_, by simp [invokes]⟩
    exact List.mem_iff_getElem?.mpr
      ⟨index, List.getElem?_zip_eq_some.mpr ⟨inInstructions, inFrames⟩⟩

theorem mem_keysIn
    {frames : MethodFrames}
    {keys : List Text}
    (success : extractor.keysIn frames = .ok keys) :
    key ∈ keys ↔
      ∃ (index : Nat) (instruction : Instruction) (frame : Frame),
        frames.flow.instructions[index]? = some instruction ∧
          frames.frames[index]? = some (some frame) ∧
            instruction.kind = .invoke ∧
              extractor.keyAt? instruction frame = .ok (some key) := by
  obtain ⟨found, foundAll, success⟩ := Outcome.bind_eq_ok.mp success
  cases success
  simp only [Text.mem_sortedDistinct, List.mem_filterMap, id_eq,
    exists_eq_right, Outcome.mem_of_mapM foundAll, Prod.exists,
    mem_invocations]
  constructor
  · rintro ⟨instruction, frame, ⟨invokes, index, present, reached⟩, passes⟩
    exact ⟨index, instruction, frame, present, reached, invokes, passes⟩
  · rintro ⟨index, instruction, frame, present, reached, invokes, passes⟩
    exact ⟨instruction, frame, ⟨invokes, index, present, reached⟩, passes⟩

end Calls

section Arguments

variable {type : MethodType}
variable {position : Nat}

theorem argumentWords_eq
    {parameter : FieldType}
    (present : type.parameters[position]? = some parameter) :
    type.argumentWords =
      type.wordsBefore position + parameter.words +
        words ((type.parameters.drop (position + 1)).map .ofField) := by
  obtain ⟨inside, rfl⟩ := List.getElem?_eq_some_iff.mp present
  have total :
      type.argumentWords =
        words ((type.parameters.take position ++
          type.parameters[position] ::
            type.parameters.drop (position + 1)).map .ofField) := by
    rw [List.getElem_cons_drop, List.take_append_drop, words_map_ofField]
    rfl
  rw [total, MethodType.wordsBefore, ← words_map_ofField, ← words_ofField]
  simp only [words, List.map_append, List.map_cons, List.sum_append,
    List.sum_cons]
  omega

/-- The first word of a string is found by counting from the first argument. -/
theorem passes_iff
    (isString : type.parameters[position]? = some .string)
    {memory : Memory}
    (enough : type.argumentWords ≤ memory.stack.length)
    {word : Machine.Word} :
    Passes type position memory word ↔
      memory.stack[memory.stack.length + type.wordsBefore position -
        type.argumentWords]? = some word := by
  have total := argumentWords_eq isString
  have one : FieldType.string.words = 1 := rfl
  have wordsBefore :
      type.wordsBefore position =
        words ((type.parameters.take position).map .ofField) :=
    (words_map_ofField _).symm
  constructor
  · rintro ⟨below, before, after, shape, beforeWords, afterWords⟩
    have atWord :
        memory.stack.length + type.wordsBefore position -
            type.argumentWords =
          (below ++ before).length := by
      rw [shape]
      simp only [List.length_append, List.length_cons]
      omega
    rw [atWord, shape, List.getElem?_append_right (Nat.le_refl _),
      Nat.sub_self]
    rfl
  · intro present
    generalize atWord :
      memory.stack.length + type.wordsBefore position -
        type.argumentWords = index at present
    obtain ⟨inside, rfl⟩ := List.getElem?_eq_some_iff.mp present
    refine
      ⟨(memory.stack.take index).take (index - type.wordsBefore position),
        (memory.stack.take index).drop (index - type.wordsBefore position),
        memory.stack.drop (index + 1), ?_, ?_, ?_⟩
    · rw [List.take_append_drop, List.getElem_cons_drop,
        List.take_append_drop]
    · rw [List.length_drop, List.length_take]
      omega
    · rw [List.length_drop]
      omega

end Arguments

section Executions

theorem table_calls :
    (Opcode.table.all fun opcode => decide
      (opcode.kind = .invoke ∧ opcode.layout ≠ .dynamicCall ↔
        opcode.code ∈ methodCalls)) = true := by
  decide +kernel

theorem calls_iff
    {instruction : Instruction}
    (fits : instruction.Fits) :
    instruction.kind = .invoke ∧
        instruction.opcode.layout ≠ .dynamicCall ↔
      instruction.opcode.code ∈ methodCalls := by
  have row := List.all_eq_true.mp table_calls _ fits.row
  exact of_decide_eq_true row

/-- A call finds the words of its arguments on the stack. -/
theorem argumentWords_le
    {instruction : Instruction}
    (invokes : instruction.opcode.code ∈ methodCalls)
    {member : Member}
    (operand : instruction.operand = .member member)
    {type : MethodType}
    (typed : MethodType.read? member.descriptor = some type)
    {before after : Memory}
    (runs : Runs instruction before after) :
    type.argumentWords ≤ before.stack.length := by
  obtain ⟨action, acts, effect⟩ := runs
  obtain ⟨receiver, calls⟩ :
      ∃ receiver, form? instruction.opcode.code = some (.call receiver) := by
    simp only [methodCalls, List.mem_cons, List.not_mem_nil, or_false]
      at invokes
    rcases invokes with code | code | code | code <;>
      exact ⟨_, by rw [code]; rfl⟩
  simp only [action?, calls, operand, MethodType.parse, typed, Except.map,
    Except.toOption, Option.some.injEq] at acts
  subst acts
  cases effect with
  | exchange locals below takenWords givenWords =>
      rw [MethodType.argumentWords, ← words_map_ofField]
      simp only [words, List.map_append, List.sum_append] at takenWords ⊢
      rw [List.length_append]
      omega

theorem read_word_frame
    {memory : Memory}
    {index : Nat}
    {text : Text} :
    memory.frame.read (.word index) = .literal text ↔
      memory.stack[index]? = some (.literal text) := by
  rw [Frame.read_word_eq_literal, Memory.frame, List.getElem?_map,
    Option.map_eq_some_iff]
  simp only [Word.value_eq_literal, exists_eq_right]

variable {program : Program}
variable {facts : Nat → Option Frame}
variable {index : Nat}
variable {frame : Frame}

theorem depth_eq
    (precise : MethodFrames.Exact facts program.Arrives)
    (reached : facts index = some frame)
    {memory : Memory}
    (reaches : program.Reaches index memory) :
    memory.stack.length = frame.depth := by
  obtain ⟨other, otherReached, below⟩ :=
    precise.covers ⟨memory, reaches, rfl⟩
  cases reached.symm.trans otherReached
  simpa [Memory.frame, Frame.depth] using below.shape.stack

variable {instruction : Instruction}
variable {member : Member}
variable {type : MethodType}

/-- Where executions come to a call, they all have its arguments on the stack. -/
theorem arguments_present
    (safe : program.Safe)
    (present : program.instructions[index]? = some instruction)
    (invokes : instruction.opcode.code ∈ methodCalls)
    (operand : instruction.operand = .member member)
    (typed : MethodType.read? member.descriptor = some type)
    {memory : Memory}
    (reaches : program.Reaches index memory) :
    type.argumentWords ≤ memory.stack.length := by
  obtain ⟨other, after, otherPresent, runs⟩ := safe.runs reaches
  cases present.symm.trans otherPresent
  exact argumentWords_le invokes operand typed runs

/-- The word of a key is known exactly when all executions pass its literal. -/
theorem known_iff_passed
    (precise : MethodFrames.Exact facts program.Arrives)
    (reached : facts index = some frame)
    {position : Nat}
    (isString : type.parameters[position]? = some .string)
    (enough :
      ∀ {memory},
        program.Reaches index memory →
        type.argumentWords ≤ memory.stack.length)
    {text : Text} :
    frame.stack[frame.depth + type.wordsBefore position -
        type.argumentWords]? = some (.literal text) ↔
      ∀ {memory},
        program.Reaches index memory →
        Passes type position memory (.literal text) := by
  rw [← Frame.read_word_eq_literal, precise.read_eq_literal reached]
  constructor
  · intro known memory reaches
    rw [passes_iff isString (enough reaches),
      depth_eq precise reached reaches]
    exact read_word_frame.mp (known ⟨memory, reaches, rfl⟩)
  · rintro passed _ ⟨memory, reaches, rfl⟩
    have passes := passed reaches
    rw [passes_iff isString (enough reaches),
      depth_eq precise reached reaches] at passes
    exact read_word_frame.mpr passes

variable {extractor : Extractor}
variable {key : Text}

/-- A key is told at a call exactly when all executions pass it there. -/
theorem keyAt?_iff_passed
    (precise : MethodFrames.Exact facts program.Arrives)
    (safe : program.Safe)
    (present : program.instructions[index]? = some instruction)
    (fits : instruction.Fits)
    (reached : facts index = some frame) :
    instruction.kind = .invoke ∧
        extractor.keyAt? instruction frame = .ok (some key) ↔
      ∃ type position text,
        TakesKey extractor program index type position ∧
          (∀ {memory},
            program.Reaches index memory →
            Passes type position memory (.literal text)) ∧
            Key.ofLiteral? extractor.qualifier text = some key := by
  obtain ⟨_, someMemory, someReaches, _⟩ := precise.arrives reached
  rw [keyAt?_eq_some, ← and_assoc, calls_iff fits]
  constructor
  · rintro ⟨invokes, member, type, site, operand, typed, found, passes⟩
    have enough
        {memory : Memory}
        (reaches : program.Reaches index memory) :=
      arguments_present safe present invokes operand typed reaches
    have depth := depth_eq precise reached someReaches
    obtain ⟨position, text, argument, isString, known, shaped⟩ :=
      (keyOfCall?_eq_some (depth ▸ enough someReaches)).mp passes
    exact
      ⟨type, position, text,
        .call present invokes operand typed found argument isString,
        (known_iff_passed precise reached isString enough).mp known,
        shaped⟩
  · rintro ⟨type, position, text, takes, passed, shaped⟩
    obtain ⟨other, invokes, operand, typed, found, argument, isString⟩ :=
      takes
    rename_i called member site
    cases present.symm.trans other
    have enough
        {memory : Memory}
        (reaches : program.Reaches index memory) :=
      arguments_present safe present invokes operand typed reaches
    have depth := depth_eq precise reached someReaches
    have known :=
      (known_iff_passed precise reached isString enough).mpr passed
    exact
      ⟨invokes, member, type, site, operand, typed, found,
        (keyOfCall?_eq_some (depth ▸ enough someReaches)).mpr
          ⟨position, text, argument, isString, known, shaped⟩⟩

end Executions

section Methods

variable {extractor : Extractor}
variable {pool : Pool}
variable {method : Method}
variable {keys : List Text}

theorem keysOfMethod_eq_ok
    {body : Body}
    (hasBody : method.body = some body)
    (success : extractor.keysOfMethod pool method = .ok keys) :
    ∃ instructions flow run,
      Code.decode body.code pool = .ok instructions ∧
        CodeFlow.build method.label instructions body.handlers =
            .ok flow ∧
          (MethodFrames.problem flow body.maxLocals).solve .ranked
              extractor.limit = .ok run ∧
            run.converged = true ∧
              extractor.keysIn ⟨flow, run.facts.toList, run.visits⟩ =
                .ok keys := by
  unfold keysOfMethod at success
  simp only [hasBody] at success
  obtain ⟨frames, analysed, told⟩ := Outcome.bind_eq_ok.mp success
  rw [Outcome.mapError_eq_ok] at analysed
  obtain ⟨other, instructions, flow, run, otherBody, decoded, built, solved,
    converged, rfl⟩ := MethodFrames.ofMethod_eq_ok analysed
  cases hasBody.symm.trans otherBody
  exact
    ⟨instructions, flow, run, decoded, built, solved, converged, told⟩

/--
If the keys of a method are told, no execution of its code gets stuck, and the
keys are those that the executions use.  A method without code has none.
-/
theorem keysOfMethod_iff_executions
    (success : extractor.keysOfMethod pool method = .ok keys) :
    (method.body = none → keys = []) ∧
      ∀ {body},
        method.body = some body →
        ∃ instructions,
          Code.decode body.code pool = .ok instructions ∧
            Program.Safe ⟨instructions, body.handlers, body.maxLocals⟩ ∧
              ∀ {key},
                key ∈ keys ↔
                  extractor.UsesKey
                    ⟨instructions, body.handlers, body.maxLocals⟩ key := by
  constructor
  · intro noBody
    simp only [keysOfMethod, noBody, Except.ok.injEq] at success
    exact success.symm
  · intro body hasBody
    obtain ⟨instructions, flow, run, decoded, built, solved, converged,
      told⟩ := keysOfMethod_eq_ok hasBody success
    let program : Program :=
      ⟨instructions, body.handlers, body.maxLocals⟩
    have consecutive := Code.decode_consecutive decoded
    have safe : program.Safe :=
      Program.safe_of_converged decoded built solved converged
    have precise :
        MethodFrames.Exact
          ((MethodFrames.problem flow body.maxLocals).factAt run)
          program.Arrives :=
      Program.arrives_exact consecutive built
        (Code.decode_nonempty decoded) solved converged
    refine ⟨instructions, decoded, safe, ?_⟩
    intro key
    rw [mem_keysIn told]
    simp only [CodeFlow.build_instructions built]
    constructor
    · rintro ⟨index, instruction, frame, present, inFacts, passes⟩
      have reached :=
        (MethodFrames.getElem?_facts flow body.maxLocals).mp inFacts
      have fits := consecutive.fits (List.mem_of_getElem? present)
      obtain ⟨type, position, text, takes, passed, shaped⟩ :=
        (keyAt?_iff_passed precise safe present fits reached).mp passes
      obtain ⟨_, memory, reaches, _⟩ := precise.arrives reached
      exact
        ⟨index, type, position, text, takes, ⟨memory, reaches⟩, passed,
          shaped⟩
    · rintro ⟨index, type, position, text, takes, ⟨memory, reaches⟩,
        passed, shaped⟩
      obtain ⟨instruction, _, present, _⟩ := safe.runs reaches
      obtain ⟨frame, reached, _⟩ := precise.covers ⟨memory, reaches, rfl⟩
      have fits := consecutive.fits (List.mem_of_getElem? present)
      exact
        ⟨index, instruction, frame, present,
          (MethodFrames.getElem?_facts flow body.maxLocals).mpr reached,
          (keyAt?_iff_passed precise safe present fits reached).mpr
            ⟨type, position, text, takes, passed, shaped⟩⟩

/--
Code that calls a method twice after a branch, first with the same literal from
both sides of the branch and then with different ones.
-/
def branchingCode : Bytes :=
  [0x1A, 0x99, 0x00, 0x08, 0x12, 0x02, 0xA7, 0x00, 0x05, 0x12, 0x02,
    0xB8, 0x00, 0x05, 0x1A, 0x99, 0x00, 0x08, 0x12, 0x02, 0xA7, 0x00, 0x05,
    0x12, 0x04, 0xB8, 0x00, 0x05, 0xB1]

/-- The literals and the method that the code names. -/
def branchingPool : Pool :=
  ⟨[none, some (.utf8 "menu.title"), some (.string 1),
    some (.utf8 "menu.text"), some (.string 3), some (.methodRef 6 8),
    some (.classRef 7), some (.utf8 "Menu"), some (.nameAndType 9 10),
    some (.utf8 "show"), some (.utf8 "(Ljava/lang/String;)V")]⟩

/-- A method with this code. -/
def branchingMethod : Method :=
  ⟨"Menu", "open", "(Z)V", 8, some ⟨1, 1, branchingCode, []⟩⟩

/-- The extractor of the called method. -/
def menuExtractor : Extractor :=
  ⟨.ofList [⟨"Menu", "show", [], 0⟩], [], 100⟩

set_option maxRecDepth 8000 in
/-- Only the literal that comes from both sides of the branch is used. -/
theorem keysOfMethod_iff_executions_branching :
    ∃ keys instructions,
      menuExtractor.keysOfMethod branchingPool branchingMethod =
          .ok keys ∧
        Code.decode branchingCode branchingPool = .ok instructions ∧
          Program.Safe ⟨instructions, [], 1⟩ ∧
            menuExtractor.UsesKey ⟨instructions, [], 1⟩ "menu.title" ∧
              ¬menuExtractor.UsesKey ⟨instructions, [], 1⟩
                "menu.text" := by
  have told :
      menuExtractor.keysOfMethod branchingPool branchingMethod =
        .ok (Text.sortedDistinct ["menu.title"]) := rfl
  obtain ⟨_, withBody⟩ := keysOfMethod_iff_executions told
  obtain ⟨instructions, decoded, safe, uses⟩ := withBody rfl
  refine ⟨_, instructions, told, decoded, safe, ?_, ?_⟩
  · exact uses.mp (Text.mem_sortedDistinct.mpr (.head _))
  · intro used
    have told := Text.mem_sortedDistinct.mp (uses.mpr used)
    exact absurd told (by decide)

end Methods

end Extractor

end KeyAudit
