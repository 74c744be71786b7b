import KeyAudit.Class.File
import KeyAudit.Code.Decode
import KeyAudit.Flow.Graph
import KeyAudit.Text.Blank

namespace KeyAudit

/-!
# The flow of control through a method

The nodes are the instructions by index.  A subroutine may return to every
instruction after a call.  An instruction covered by a row of the exception
table may go to the handler of the row.
-/

/-- The instructions of a method and the edges between them. -/
structure CodeFlow where
  name : Text
  instructions : List Instruction
  edges : List Edge
  deriving Repr, DecidableEq

namespace CodeFlow

/-- The graph of the instruction indices. -/
def graph (flow : CodeFlow) : Graph :=
  ⟨flow.instructions.length, flow.edges⟩

/-- The index of the instruction at an offset. -/
def indexAt? (instructions : List Instruction) (offset : Int) : Option Nat :=
  (instructions.find? fun instruction => (instruction.offset : Int) == offset).map
    Instruction.index

/-- The index of a jump target. -/
def targetIndex
    (instructions : List Instruction)
    (source : Instruction)
    (target : Int) :
    Except DecodeFault Nat :=
  match indexAt? instructions target with
  | some index => .ok index
  | none => .error ⟨.badTarget source.opcode.mnemonic target, some source.offset⟩

/-- The instructions after calls of subroutines. -/
def callReturns (instructions : List Instruction) : List Nat :=
  (instructions.filter fun instruction =>
      instruction.kind = .call ∧ instruction.index + 1 < instructions.length).map
    fun instruction => instruction.index + 1

/-- The edges of a jump of the given kind to the targets with their own kinds. -/
def jumpEdges
    (instructions : List Instruction)
    (source : Instruction)
    (jumps : List (EdgeKind × Int)) :
    Except DecodeFault (List Edge) :=
  jumps.mapM fun (kind, target) => do
    return ⟨source.index, ← targetIndex instructions source target, kind⟩

/-- The edges from an instruction to its jump targets. -/
def branchEdges
    (instructions : List Instruction)
    (source : Instruction) :
    Except DecodeFault (List Edge) :=
  match source.kind, source.operand with
  | .branch, .jump target => jumpEdges instructions source [(.branchTaken, target)]
  | .jump, .jump target => jumpEdges instructions source [(.jump, target)]
  | .call, .jump target => jumpEdges instructions source [(.call, target)]
  | .callReturn, _ =>
      .ok ((callReturns instructions).map fun target => ⟨source.index, target, .callReturn⟩)
  | .switch, .switch default cases =>
      jumpEdges instructions source
        ((.switchDefault, default) :: cases.map fun (key, target) => (.switchCase key, target))
  | _, _ => .ok []

/-- The edge from an instruction to the next one, if control can go there. -/
def nextEdges
    (instructions : List Instruction)
    (source : Instruction) :
    Except DecodeFault (List Edge) :=
  if source.fallsThrough then
    if source.index + 1 < instructions.length then
      .ok [⟨source.index, source.index + 1, .fallThrough⟩]
    else
      .error ⟨.fallsOff, some source.offset⟩
  else
    .ok []

/-- The edges that leave an instruction other than by an exception. -/
def instructionEdges
    (instructions : List Instruction)
    (source : Instruction) :
    Except DecodeFault (List Edge) := do
  let branches ← branchEdges instructions source
  let next ← nextEdges instructions source
  return branches ++ next

/-- The edges from the instructions that a row covers to its handler. -/
def handlerEdges
    (instructions : List Instruction)
    (handler : Handler) :
    Except DecodeFault (List Edge) :=
  match indexAt? instructions handler.target with
  | none => .error ⟨.badHandler handler.target, some handler.target⟩
  | some target =>
      .ok ((instructions.filter fun instruction => handler.covers instruction.offset).map
        fun instruction => ⟨instruction.index, target, .exception handler.catchType⟩)

/-- The flow through decoded instructions under an exception table. -/
def build
    (name : Text)
    (instructions : List Instruction)
    (handlers : List Handler) :
    Except DecodeFault CodeFlow := do
  let ordinary ← instructions.mapM (instructionEdges instructions)
  let exceptional ← handlers.mapM (handlerEdges instructions)
  return ⟨name, instructions, ordinary.flatten ++ exceptional.flatten⟩

/-- The flow through a method that has code. -/
def ofMethod (pool : Pool) (method : Method) : Except DecodeFault CodeFlow :=
  match method.body with
  | none => .error ⟨.noCode method.signature, none⟩
  | some body => do
      let instructions ← Code.decode body.code pool
      build method.label instructions body.handlers

/-- The one-line description of a flow. -/
def headline (flow : CodeFlow) : Text :=
  let name : Text := if flow.name.isEmpty then "<unknown>" else flow.name
  "CFG(method=" ++ name.quoted ++ ", instructions=" ++
    Text.ofNat flow.instructions.length ++ ", edges=" ++ Text.ofNat flow.edges.length ++ ")"

/-- The listing line of an instruction with its neighbours. -/
def summaryLine (graph : Graph) (reached : List Nat) (instruction : Instruction) : Text :=
  let index := instruction.index
  let successors := (graph.outgoing index).map fun edge =>
    Text.ofNat edge.target ++ "(" ++ edge.kind.label ++ ")"
  let predecessors := (graph.incoming index).map fun edge => Text.ofNat edge.source
  let mark : Text := if reached.contains index then " " else "!"
  " " ++ mark ++ Text.padLeft 4 (Text.ofNat index) ++ " " ++
    Text.padRight 16 instruction.opcode.mnemonic ++
    " succ=[" ++ Text.joinWith ", " successors ++
    "]  pred=[" ++ Text.joinWith ", " predecessors ++ "]"

/-- A listing; instructions that cannot be reached are marked with an exclamation mark. -/
def summary (flow : CodeFlow) : List Text :=
  let reached := flow.graph.reachable 0
  flow.headline :: flow.instructions.map (summaryLine flow.graph reached)

/-- Put a backslash before each double quote. -/
def escapeQuotes (text : Text) : Text :=
  text.flatMap fun point =>
    if point = Text.doubleQuote then [Text.backslash, point] else [point]

/-- A text between double quotes. -/
def inQuotes (text : Text) : Text :=
  Text.doubleQuote :: text ++ [Text.doubleQuote]

/-- The node of an instruction in the drawing. -/
def dotNode (graph : Graph) (instruction : Instruction) : Text :=
  let index := instruction.index
  let style : Text :=
    if index = 0 then
      ", style=filled, fillcolor=" ++ inQuotes "#ccffcc"
    else if (graph.outgoing index).isEmpty then
      ", style=filled, fillcolor=" ++ inQuotes "#ffcccc"
    else
      ""
  "  I" ++ Text.ofNat index ++ " [label=" ++ inQuotes (escapeQuotes instruction.label.trim) ++
    style ++ "];"

/-- The style of an edge in the drawing. -/
def dotStyle : EdgeKind → String
  | .branchTaken => ", color=green, fontcolor=green"
  | .exception _ => ", style=dashed, color=red, fontcolor=red"
  | .call | .callReturn => ", style=dotted"
  | _ => ""

/-- An edge in the drawing. -/
def dotEdge (edge : Edge) : Text :=
  "  I" ++ Text.ofNat edge.source ++ " -> I" ++ Text.ofNat edge.target ++ " [label=" ++
    inQuotes edge.kind.description ++ dotStyle edge.kind ++ "];"

/-- A drawing in the DOT language; an empty title stands for the name of the flow. -/
def dot (flow : CodeFlow) (title : Text) : List Text :=
  let caption := if title.isEmpty then flow.name else title
  let captionLine : List Text :=
    if caption.isEmpty then [] else ["  label=" ++ inQuotes caption ++ ";"]
  let opening : Text := "digraph CFG \x7b"
  let defaults : Text := "  node [shape=box, fontname=monospace, fontsize=10];"
  let closing : Text := "\x7d"
  opening :: captionLine ++ defaults :: flow.instructions.map (dotNode flow.graph) ++
    flow.edges.map dotEdge ++ [closing]

/-- The lines of a drawing; names and titles may hold line feeds. -/
def dotLines (flow : CodeFlow) (title : Text) : List Text :=
  (flow.dot title).flatMap (Text.splitAtEach '\n')

end CodeFlow

end KeyAudit
