import KeyAudit.Proofs.Code.Edges
import KeyAudit.Proofs.Code.Listing

namespace KeyAudit

/-!
# Labels of drawings

A drawing puts the caption, the listing lines of the instructions and the
descriptions of the edges between double quotes.  Only the listing lines are
escaped, and of these only the double quotes.  So whether every label ends at the
quote that was written behind it depends on the caption, on the names of members
and classes and on the caught classes.  Constants never matter.
-/

open Text

namespace EdgeKind

/-- Only a caught class can break the description of an edge. -/
theorem contained_description
    (kind : EdgeKind) :
    kind.description.Contained ↔
      ∀ catchType ∈ kind.catchType?, catchType.Contained := by
  have plain
      {text : Text}
      (noQuote : text.contains doubleQuote = false)
      (noBackslash : text.contains backslash = false) :
      text.Contained :=
    contained_of_plain (by simpa using noQuote) (by simpa using noBackslash)
  cases kind with
  | switchCase key =>
      have isKey : (ofInt key).Contained :=
        contained_of_plain
          (not_mem_ofInt (by decide) (by decide) key)
          (not_mem_ofInt (by decide) (by decide) key)
      have start : Contained ("switch-case" ++ ": ") :=
        plain (by decide) (by decide)
      exact iff_of_true (start.append isKey) nofun
  | exception catchType =>
      match catchType with
      | none =>
          exact iff_of_true (plain (by decide) (by decide)) nofun
      | some [] =>
          refine iff_of_true (plain (by decide) (by decide)) ?_
          rintro _ ⟨⟩
          exact Settled.empty
      | some (point :: points) =>
          have start : Contained ("exception" ++ ": ") :=
            plain (by decide) (by decide)
          change
            Contained ("exception" ++ ": " ++ point :: points) ↔
              ∀ catchType ∈ some (point :: points), Contained catchType
          simp only [Option.mem_some_iff, forall_eq']
          exact start.append_iff
  | _ =>
      exact iff_of_true (plain (by decide) (by decide)) nofun

end EdgeKind

namespace CodeFlow

section Escaping

variable {text : Text}

theorem escapeQuotes_snoc_quote
    (text : Text) :
    escapeQuotes (text ++ [doubleQuote]) =
      escapeQuotes text ++ [backslash] ++ [doubleQuote] := by
  simp [escapeQuotes]

theorem escapeQuotes_snoc_other
    {point : CodePoint}
    (other : point ≠ doubleQuote)
    (text : Text) :
    escapeQuotes (text ++ [point]) = escapeQuotes text ++ [point] := by
  simp [escapeQuotes, other]

/-- Escaping double quotes does not change what is escaped after a text. -/
theorem escapesNext_escapeQuotes
    (text : Text) :
    (escapeQuotes text).escapesNext = text.escapesNext := by
  induction text using List.reverseRecOn with
  | nil =>
      rfl
  | append_singleton text point inductionHypothesis =>
      by_cases isQuote : point = doubleQuote
      · have notBackslash : decide (doubleQuote = backslash) = false := by
          decide
        simp only [isQuote, escapeQuotes_snoc_quote, escapesNext_snoc,
          notBackslash, Bool.false_and]
      · rw [escapeQuotes_snoc_other isQuote, escapesNext_snoc,
          escapesNext_snoc, inductionHypothesis]

theorem stands_escapeQuotes :
    (escapeQuotes text).Stands isDoubleQuote true ↔
      text.Stands isDoubleQuote false := by
  induction text using List.reverseRecOn with
  | nil =>
      exact iff_of_true stands_nil stands_nil
  | append_singleton text point inductionHypothesis =>
      by_cases isQuote : point = doubleQuote
      · have notQuote : isDoubleQuote backslash = false := by decide
        simp only [isQuote, escapeQuotes_snoc_quote, stands_snoc, notQuote,
          escapesNext_snoc, escapesNext_escapeQuotes, inductionHypothesis]
        simp [isDoubleQuote]
      · simp [escapeQuotes_snoc_other isQuote, stands_snoc,
          inductionHypothesis, isDoubleQuote, isQuote]

/-- A text can be escaped when its double quotes and its end are not escaped yet. -/
theorem contained_escapeQuotes :
    (escapeQuotes text).Contained ↔ text.Escapable := by
  constructor
  · rintro ⟨stands, ends⟩
    rw [escapesNext_escapeQuotes] at ends
    exact ⟨stands_escapeQuotes.mp stands, ends⟩
  · rintro ⟨stands, ends⟩
    rw [← escapesNext_escapeQuotes] at ends
    exact ⟨stands_escapeQuotes.mpr stands, ends⟩

instance : Decidable text.Escapable :=
  decidable_of_iff (escapeQuotes text).Contained contained_escapeQuotes

end Escaping

/-- The caption of a drawing: its title, or the name of the flow. -/
def caption (name title : Text) : Text :=
  if title.isEmpty then name else title

/-- The statements of a drawing, each with the label that is written into it, if any. -/
def statements (flow : CodeFlow) (title : Text) : List (Text × Option Text) :=
  let shown := caption flow.name title
  let opening : Text := "digraph CFG \x7b"
  let captionStatement : List (Text × Option Text) :=
    if shown.isEmpty then []
    else [("  label=" ++ inQuotes shown ++ ";", some shown)]
  let defaults : Text := "  node [shape=box, fontname=monospace, fontsize=10];"
  let closing : Text := "\x7d"
  (opening, none) :: captionStatement ++ (defaults, none) ::
    flow.instructions.map (fun instruction =>
      (dotNode flow.graph instruction,
        some (escapeQuotes instruction.label.trim))) ++
    flow.edges.map (fun edge => (dotEdge edge, some edge.kind.description)) ++
    [(closing, none)]

theorem map_fst_statements
    (flow : CodeFlow)
    (title : Text) :
    (flow.statements title).map Prod.fst = flow.dot title := by
  simp only [statements, dot, caption]
  split_ifs <;> simp [Function.comp_def]

/--
A statement is read as it was written: without a label it holds no string, and
else its first string is the label, which ends at the quote written behind it.
-/
def ReadAsWritten : Text × Option Text → Prop
  | (statement, none) =>
      doubleQuote ∉ statement
  | (statement, some label) =>
      ∃ before after : Text,
        statement = before ++ inQuotes label ++ after ∧
          doubleQuote ∉ before ∧
            firstString statement = some (label, after)

theorem readAsWritten_none
    {statement : Text} :
    ReadAsWritten (statement, none) ↔ doubleQuote ∉ statement :=
  Iff.rfl

/-- A label is read as it was written when it can stand between double quotes. -/
theorem readAsWritten_iff
    {before label after : Text}
    (absent : doubleQuote ∉ before) :
    ReadAsWritten (before ++ inQuotes label ++ after, some label) ↔
      label.Contained := by
  have reads
      {before : Text}
      (absent : doubleQuote ∉ before)
      (after : Text) :
      firstString (before ++ inQuotes label ++ after) =
          some (label, after) ↔
        label.Contained := by
    have shape :
        before ++ inQuotes label ++ after =
          before ++ doubleQuote :: label ++ doubleQuote :: after := by
      simp [inQuotes]
    rw [shape]
    exact firstString_eq_some absent label after
  constructor
  · rintro ⟨otherBefore, otherAfter, shape, otherAbsent, read⟩
    rw [shape] at read
    exact (reads otherAbsent otherAfter).mp read
  · intro contained
    exact ⟨before, after, rfl, absent, (reads absent after).mpr contained⟩

theorem readAsWritten_dotNode
    (graph : Graph)
    {instruction : Instruction}
    (fits : instruction.Fits) :
    ReadAsWritten
        (dotNode graph instruction,
          some (escapeQuotes instruction.label.trim)) ↔
      ∀ name ∈ instruction.operand.name?, name.trimEnd.Escapable := by
  have absent :
      doubleQuote ∉ "  I" ++ ofNat instruction.index ++ " [label=" := by
    simp only [List.mem_append, not_or]
    exact ⟨⟨by decide, not_mem_ofNat (by decide) _⟩, by decide⟩
  rw [dotNode, List.append_assoc _ _ (ofString "];"), readAsWritten_iff absent,
    contained_escapeQuotes, Instruction.escapable_label fits]

theorem readAsWritten_dotEdge
    (edge : Edge) :
    ReadAsWritten (dotEdge edge, some edge.kind.description) ↔
      ∀ catchType ∈ edge.kind.catchType?, catchType.Contained := by
  have absent :
      doubleQuote ∉
        "  I" ++ ofNat edge.source ++ " -> I" ++ ofNat edge.target ++
          " [label=" := by
    simp only [List.mem_append, not_or]
    exact ⟨⟨⟨⟨by decide, not_mem_ofNat (by decide) _⟩, by decide⟩,
      not_mem_ofNat (by decide) _⟩, by decide⟩
  rw [dotEdge, List.append_assoc _ _ (ofString "];"), readAsWritten_iff absent,
    edge.kind.contained_description]

theorem readAsWritten_caption
    (shown : Text) :
    ReadAsWritten ("  label=" ++ inQuotes shown ++ ";", some shown) ↔
      shown.Contained :=
  readAsWritten_iff (by decide)

/-- The statements of a drawing are read as written when all its labels are. -/
theorem statements_readAsWritten_iff
    (flow : CodeFlow)
    (title : Text) :
    (∀ statement ∈ flow.statements title, ReadAsWritten statement) ↔
      (caption flow.name title).Contained ∧
        (∀ instruction ∈ flow.instructions,
          ReadAsWritten
            (dotNode flow.graph instruction,
              some (escapeQuotes instruction.label.trim))) ∧
          ∀ edge ∈ flow.edges,
            ReadAsWritten (dotEdge edge, some edge.kind.description) := by
  have opening : doubleQuote ∉ ofString "digraph CFG \x7b" := by
    decide
  have defaults :
      doubleQuote ∉
        ofString "  node [shape=box, fontname=monospace, fontsize=10];" := by
    decide
  have closing : doubleQuote ∉ ofString "\x7d" := by
    decide
  have captions :
      (∀ statement ∈
          (if (caption flow.name title).isEmpty then []
            else
              [("  label=" ++ inQuotes (caption flow.name title) ++ ";",
                some (caption flow.name title))]),
        ReadAsWritten statement) ↔
      (caption flow.name title).Contained := by
    split_ifs with isEmpty
    · rw [List.isEmpty_iff.mp isEmpty]
      exact iff_of_true nofun Settled.empty
    · rw [List.forall_mem_singleton]
      exact readAsWritten_caption (caption flow.name title)
  simp only [statements, List.forall_mem_append, List.forall_mem_cons,
    List.forall_mem_map, captions, readAsWritten_none, opening, defaults,
    closing, List.not_mem_nil, not_false_eq_true, false_implies, implies_true,
    and_true, true_and, and_assoc]

variable {code : Bytes} {pool : Pool} {instructions : List Instruction}
variable {handlers : List Handler} {name : Text} {flow : CodeFlow}

theorem build_name
    (built : build name instructions handlers = .ok flow) :
    flow.name = name := by
  obtain ⟨_, _, built⟩ := Outcome.bind_eq_ok.mp built
  obtain ⟨_, _, built⟩ := Outcome.bind_eq_ok.mp built
  cases built
  rfl

/-- The caught classes on the edges of a flow are those of the rows that cover code. -/
theorem edges_catch_iff
    (consecutive : Code.Consecutive 0 0 instructions)
    (built : build name instructions handlers = .ok flow)
    {catchType : Text} :
    (∃ edge ∈ flow.edges, catchType ∈ edge.kind.catchType?) ↔
      ∃ handler ∈ handlers,
        catchType ∈ handler.catchType ∧
          ∃ instruction ∈ instructions,
            handler.covers instruction.offset = true := by
  constructor
  · rintro ⟨edge, member, caught⟩
    obtain ⟨source, present, joins⟩ :=
      (mem_edges_iff consecutive built).mp member
    obtain ⟨edgeSource, target, kind⟩ := edge
    cases joins with
    | leads leads =>
        have notException := leads.not_exception
        cases kind with
        | exception _ =>
            cases notException
        | _ =>
            cases caught
    | raises isHandler covered lands =>
        exact ⟨_, isHandler, caught, source, List.mem_of_getElem? present,
          covered⟩
  · rintro ⟨handler, isHandler, caught, source, isSource, covered⟩
    obtain ⟨target, lands⟩ := handler_lands consecutive built isHandler
    obtain ⟨position, present⟩ := List.mem_iff_getElem?.mp isSource
    exact
      ⟨⟨position, target, .exception handler.catchType⟩,
        (mem_edges_iff consecutive built).mpr
          ⟨source, present, .raises isHandler covered lands⟩,
        caught⟩

/--
Each label of a drawing ends at the quote that is written behind it if and only if
the caption and the caught classes can stand between double quotes as they are, and
the names of members and classes can once their double quotes are escaped.
-/
theorem labels_end_as_written_iff
    (decoded : Code.decode code pool = .ok instructions)
    (built : build name instructions handlers = .ok flow)
    (title : Text) :
    (flow.statements title).map Prod.fst = flow.dot title ∧
      ((∀ statement ∈ flow.statements title, ReadAsWritten statement) ↔
        (caption name title).Contained ∧
          (∀ instruction ∈ instructions,
            ∀ shown ∈ instruction.operand.name?, shown.trimEnd.Escapable) ∧
            ∀ handler ∈ handlers,
              ∀ instruction ∈ instructions,
                handler.covers instruction.offset = true →
                  ∀ catchType ∈ handler.catchType, catchType.Contained) := by
  have consecutive := Code.decode_consecutive decoded
  refine ⟨flow.map_fst_statements title, ?_⟩
  rw [statements_readAsWritten_iff, build_name built,
    build_instructions built, and_congr_right_iff]
  intro _
  refine and_congr ?_ ?_
  · refine forall₂_congr fun instruction member => ?_
    exact readAsWritten_dotNode flow.graph (consecutive.fits member)
  · simp only [readAsWritten_dotEdge]
    constructor
    · intro edges handler isHandler instruction isInstruction covered catchType
        caught
      obtain ⟨edge, isEdge, onEdge⟩ :=
        (edges_catch_iff consecutive built).mpr
          ⟨handler, isHandler, caught, instruction, isInstruction, covered⟩
      exact edges edge isEdge catchType onEdge
    · intro rows edge isEdge catchType onEdge
      obtain ⟨handler, isHandler, caught, instruction, isInstruction, covered⟩ :=
        (edges_catch_iff consecutive built).mp ⟨edge, isEdge, onEdge⟩
      exact rows handler isHandler instruction isInstruction covered catchType
        caught

/-- A string constant with quotes and backslashes, and a class with a quote in its name. -/
def quotedPool : Pool :=
  ⟨[none, some (.utf8 "A\"B"), some (.classRef 1), some (.utf8 "\\\"\\"),
    some (.string 3)]⟩

/-- Load the constant, drop it, make an object of the class, drop it and return. -/
def quotedCode : Bytes :=
  [0x12, 4, 0x57, 0xBB, 0, 2, 0x57, 0xB1]

set_option maxRecDepth 4000 in
/-- Double quotes and backslashes in all the texts of a drawing that is read as written. -/
theorem labels_end_as_written_quoted :
    ∃ instructions flow,
      Code.decode quotedCode quotedPool = .ok instructions ∧
        build "m" instructions [⟨0, 3, 7, some "E\\\\"⟩] = .ok flow ∧
          (flow.statements "say \\\"hi\\\"").length = 15 ∧
            ∀ statement ∈ flow.statements "say \\\"hi\\\"",
              ReadAsWritten statement := by
  obtain ⟨instructions, flow, decoded, built, count, names, rows⟩ :
      ∃ instructions flow,
        Code.decode quotedCode quotedPool = .ok instructions ∧
          build "m" instructions [⟨0, 3, 7, some "E\\\\"⟩] = .ok flow ∧
            (flow.statements "say \\\"hi\\\"").length = 15 ∧
              (∀ instruction ∈ instructions,
                ∀ shown ∈ instruction.operand.name?,
                  shown.trimEnd.Escapable) ∧
                ∀ handler ∈ [(⟨0, 3, 7, some "E\\\\"⟩ : Handler)],
                  ∀ instruction ∈ instructions,
                    handler.covers instruction.offset = true →
                      ∀ catchType ∈ handler.catchType,
                        catchType.Contained :=
    ⟨_, _, rfl, rfl, by decide, by decide, by decide⟩
  refine ⟨instructions, flow, decoded, built, count, ?_⟩
  exact (labels_end_as_written_iff decoded built _).2.mpr
    ⟨by decide, names, rows⟩

/-- A class whose name ends in a backslash. -/
def unescapedPool : Pool :=
  ⟨[none, some (.utf8 "A\\"), some (.classRef 1)]⟩

/-- Make an object of the class, drop it and return. -/
def unescapedCode : Bytes :=
  [0xBB, 0, 2, 0x57, 0xB1]

set_option maxRecDepth 4000 in
/--
A double quote in a title or in a caught class ends its label early, and a name
that ends in a backslash runs on to the next string of the statement.
-/
theorem labels_misread_unescaped :
    ∃ instructions flow,
      Code.decode unescapedCode unescapedPool = .ok instructions ∧
        build "m" instructions [⟨0, 3, 4, some "E\""⟩] = .ok flow ∧
          (flow.dot "say \"hi\"").map firstString =
            [none,
              some ("say ", "hi\"\";"),
              none,
              some ("0: new A\\\", style=filled, fillcolor=", "#ccffcc\"];"),
              some ("3: pop", "];"),
              some ("4: return", ", style=filled, fillcolor=\"#ffcccc\"];"),
              some ("fall-through", "];"),
              some ("fall-through", "];"),
              some
                ("exception: E",
                  "\", style=dashed, color=red, fontcolor=red];"),
              none].map (Option.map (Prod.map ofString ofString)) ∧
            (flow.statements "say \"hi\"").filterMap Prod.snd =
              ["say \"hi\"", "0: new A\\", "3: pop", "4: return",
                "fall-through", "fall-through", "exception: E\""].map
                  ofString :=
  ⟨_, _, rfl, rfl, by decide +kernel, by decide +kernel⟩

end CodeFlow

end KeyAudit
