import StageLink.Interchange.Expr
import StageLink.Interchange.Variable
import StageLink.Shader

/-!
# Shaders as documents

Instructions, functions, uniform blocks and whole shaders.  The symbol table of a shader is not
written; reading a shader rebuilds it from the declarations.
-/

namespace StageLink

def Stage.naming : Naming Stage := ⟨Stage.all, Stage.name⟩

def Primitive.naming : Naming Primitive where
  all :=
    [.points, .lines, .linesAdjacency, .lineStrip, .triangles, .trianglesAdjacency,
      .triangleStrip]
  name
    | .points => "points"
    | .lines => "lines"
    | .linesAdjacency => "lines_adjacency"
    | .lineStrip => "line_strip"
    | .triangles => "triangles"
    | .trianglesAdjacency => "triangles_adjacency"
    | .triangleStrip => "triangle_strip"

open Document

/-! ## Instructions -/

namespace Callee

/-- Write a callee. -/
def toDocument (callee : Callee) : Document :=
  .record [("function", natural callee.function), ("signature", natural callee.signature)]

/-- Read a callee. -/
def ofDocument (document : Document) : Decoded Callee := do
  let members ← document.membersInOrder ["function", "signature"]
  return ⟨← members.required "function" asWord, ← members.required "signature" (asNatural 64)⟩

end Callee

mutual

/-- Write an instruction. -/
def Instruction.toDocument : Instruction → Document
  | .declare id => alternative "Declare" (natural id)
  | .function id => alternative "Function" (natural id)
  | .assign target value guard =>
      alternative "Assign" <| .record
        [("lhs", target.toDocument), ("rhs", value.toDocument),
          ("condition", option Expr.toDocument guard)]
  | .call callee arguments result =>
      alternative "Call" <| .record
        [("callee", callee.toDocument), ("arguments", list (Expr.documents arguments)),
          ("result", option Place.toDocument result)]
  | .branch condition accept reject =>
      alternative "If" <| .record
        [("condition", condition.toDocument), ("accept", list (Block.documents accept)),
          ("reject", list (Block.documents reject))]
  | .loop body => alternative "Loop" <| .record [("body", list (Block.documents body))]
  | .leave => text "Break"
  | .next => text "Continue"
  | .yield value => alternative "Return" (option Expr.toDocument value)
  | .discard => text "Discard"
  | .emitVertex => text "EmitVertex"
  | .endPrimitive => text "EndPrimitive"

def Block.documents : List Instruction → List Document
  | [] => []
  | instruction :: instructions => instruction.toDocument :: Block.documents instructions

end

/-- Read an instruction that has no parts. -/
def Instruction.ofName (name : String) : Decoded Instruction :=
  match name with
  | "Break" => pure .leave
  | "Continue" => pure .next
  | "Discard" => pure .discard
  | "EmitVertex" => pure .emitVertex
  | "EndPrimitive" => pure .endPrimitive
  | _ => throw (.unknownName name)

mutual

/-- Read an instruction. -/
def Instruction.ofDocument (document : Document) : Decoded Instruction := do
  match ← document.choice with
  | ("Declare", some id) => .declare <$> id.val.asWord
  | ("Function", some id) => .function <$> id.val.asWord
  | ("Assign", some content) => do
      let members ← content.val.content ["lhs", "rhs", "condition"]
      return .assign (← members.required "lhs" Place.ofDocument)
        (← members.required "rhs" Expr.ofDocument)
        (← members.optional "condition" none (asOption Expr.ofDocument))
  | ("Call", some content) => do
      let members ← content.val.content ["callee", "arguments", "result"]
      return .call (← members.required "callee" Callee.ofDocument)
        (← members.required "arguments" Expr.listOfDocument)
        (← members.optional "result" none (asOption Place.ofDocument))
  | ("If", some ⟨content, _⟩) => do
      let members ← content.content ["condition", "accept", "reject"]
      let ⟨accept, _⟩ ← members.get "accept"
      let ⟨reject, _⟩ ← members.get "reject"
      return .branch (← members.required "condition" Expr.ofDocument)
        (← Block.ofDocument accept) (← Block.ofDocument reject)
  | ("Loop", some ⟨content, _⟩) => do
      let members ← content.content ["body"]
      let ⟨body, _⟩ ← members.get "body"
      return .loop (← Block.ofDocument body)
  | ("Return", some value) => .yield <$> asOption Expr.ofDocument value.val
  | (name, content) => do
      noContent content
      Instruction.ofName name
termination_by sizeOf document

def Block.ofDocument (document : Document) : Decoded (List Instruction) := do
  (← document.items).mapM fun ⟨item, _⟩ => Instruction.ofDocument item
termination_by sizeOf document

end

/-- Write an instruction list. -/
def Block.toDocument (block : Block) : Document := list (Block.documents block)

/-! ## Functions -/

namespace Signature

/-- Write a signature. -/
def toDocument (signature : Signature) : Document :=
  .record
    [("return_type", signature.returnType.toDocument),
      ("parameters", listOf natural signature.parameters),
      ("body", Block.toDocument signature.body),
      ("is_defined", .bool signature.isDefined),
      ("is_builtin", .bool signature.isBuiltin)]

/-- Read a signature. -/
def ofDocument (document : Document) : Decoded Signature := do
  let members ← document.membersInOrder
    ["return_type", "parameters", "body", "is_defined", "is_builtin"]
  return {
    returnType := ← members.optional "return_type" .void Ty.ofDocument
    parameters := ← members.optional "parameters" [] (asList asWord)
    body := ← members.optional "body" [] Block.ofDocument
    isDefined := ← members.optional "is_defined" false asBool
    isBuiltin := ← members.optional "is_builtin" false asBool }

end Signature

namespace Function

/-- Write a function. -/
def toDocument (function : Function) : Document :=
  .record
    [("name", text function.name), ("signatures", listOf Signature.toDocument function.signatures)]

/-- Read a function. -/
def ofDocument (document : Document) : Decoded Function := do
  let members ← document.membersInOrder ["name", "signatures"]
  return {
    name := ← members.required "name" asText
    signatures := ← members.required "signatures" (asList Signature.ofDocument) }

end Function

/-! ## Layouts and blocks -/

namespace GeometryLayout

def toDocument (layout : GeometryLayout) : Document :=
  .record
    [("input", option Primitive.naming.write layout.input),
      ("output", option Primitive.naming.write layout.output),
      ("vertices_out", option natural layout.verticesOut)]

def ofDocument (document : Document) : Decoded GeometryLayout := do
  let members ← document.membersInOrder ["input", "output", "vertices_out"]
  return {
    input := ← members.optional "input" none (asOption Primitive.naming.read)
    output := ← members.optional "output" none (asOption Primitive.naming.read)
    verticesOut := ← members.optional "vertices_out" none (asOption asWord) }

end GeometryLayout

namespace BlockMember

/-- Write a member of a uniform block. -/
def toDocument (member : BlockMember) : Document :=
  .record
    [("name", text member.name), ("ty", member.ty.toDocument), ("row_major", .bool member.rowMajor),
      ("offset", natural member.offset)]

/-- Read a member of a uniform block. -/
def ofDocument (document : Document) : Decoded BlockMember := do
  let members ← document.membersInOrder ["name", "ty", "row_major", "offset"]
  return {
    name := ← members.required "name" asText
    ty := ← members.required "ty" Ty.ofDocument
    rowMajor := ← members.optional "row_major" false asBool
    offset := ← members.optional "offset" 0 asWord }

end BlockMember

namespace UniformBlock

def toDocument (block : UniformBlock) : Document :=
  .record
    [("name", text block.name), ("members", listOf BlockMember.toDocument block.members),
      ("packing", Packing.naming.write block.packing), ("binding", option natural block.binding),
      ("data_size", natural block.size)]

def ofDocument (document : Document) : Decoded UniformBlock := do
  let members ← document.membersInOrder ["name", "members", "packing", "binding", "data_size"]
  return {
    name := ← members.required "name" asText
    members := ← members.required "members" (asList BlockMember.ofDocument)
    packing := ← members.optional "packing" .std140 Packing.naming.read
    binding := ← members.optional "binding" none (asOption asWord)
    size := ← members.optional "data_size" 0 asWord }

end UniformBlock

/-! ## Shaders -/

namespace Shader

/-- The members of the record of a shader. -/
def memberNames : List String :=
  ["stage", "version", "is_es", "variables", "functions", "ir", "geometry", "uniform_blocks"]

def toDocument (shader : Shader) : Document :=
  .record
    [("stage", Stage.naming.write shader.stage),
      ("version", natural shader.version),
      ("is_es", .bool shader.isEs),
      ("variables", listOf Variable.toDocument shader.vars.entries),
      ("functions", listOf Function.toDocument shader.functions.entries),
      ("ir", Block.toDocument shader.topLevel),
      ("geometry", shader.geometry.toDocument),
      ("uniform_blocks", listOf UniformBlock.toDocument shader.uniformBlocks)]

def ofDocument (document : Document) : Decoded Shader := do
  let members ← document.membersInOrder memberNames
  let shader : Shader := {
    stage := ← members.required "stage" Stage.naming.read
    version := ← members.required "version" asWord
    isEs := ← members.optional "is_es" false asBool
    vars := ⟨← members.optional "variables" [] (asList Variable.ofDocument)⟩
    functions := ⟨← members.optional "functions" [] (asList Function.ofDocument)⟩
    topLevel := ← members.optional "ir" [] Block.ofDocument
    geometry := ← members.optional "geometry" {} GeometryLayout.ofDocument
    uniformBlocks := ← members.optional "uniform_blocks" [] (asList UniformBlock.ofDocument) }
  return shader.populateSymbols

end Shader
end StageLink
