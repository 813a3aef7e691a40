import StageLink.Shader

/-!
# Listings

The indented listing of a shader: a heading, the layout of a geometry stage, the uniform blocks, and
the instruction lists as parenthesized expressions, two blanks for each level.
-/

namespace StageLink

/-- The text of a handle that points nowhere. -/
def invalidHandle (id : Nat) : String := s!"<invalid [{id}]>"

def swizzleLetter : Nat → Char
  | 0 => 'x'
  | 1 => 'y'
  | 2 => 'z'
  | 3 => 'w'
  | _ => '?'

def variableText (vars : Arena Variable) (id : VariableId) : String :=
  match vars.get? id with
  | some declaration => declaration.name
  | none => invalidHandle id

mutual

def Place.text (vars : Arena Variable) : Place → String
  | .whole id => s!"(var_ref {variableText vars id})"
  | .element array index _ => s!"(array_ref {array.text vars} {index.text vars})"
  | .field record name _ => s!"(record_ref {record.text vars} {name})"

def Expr.text (vars : Arena Variable) : Expr → String
  | .constant value => value.text
  | .load place => place.text vars
  | .unary operator operand ty =>
      s!"(expression {ty.text} {operator.text} {operand.text vars})"
  | .binary operator left right ty =>
      s!"(expression {ty.text} {operator.text} {left.text vars} {right.text vars})"
  | .swizzle value components _ =>
      s!"(swiz {String.ofList (components.map swizzleLetter)} {value.text vars})"
  | .compose ty components =>
      s!"(compose {ty.text} {Constant.spaced (Expr.textsOfAll vars components)})"
  | .texture sampler coordinate ty =>
      s!"(tex {ty.text} {sampler.text vars} {coordinate.text vars})"

def Expr.textsOfAll (vars : Arena Variable) : List Expr → List String
  | [] => []
  | expression :: expressions =>
      expression.text vars :: Expr.textsOfAll vars expressions

end

/-- Indentation by a number of levels. -/
def indentation (depth : Nat) : String := String.ofList (List.replicate (2 * depth) ' ')

mutual

/-- The lines of an instruction at a depth.  The lines of a declared function come from `inside`. -/
def Instruction.lines (shader : Shader) (inside : Nat → FunctionId → List String) (depth : Nat) :
    Instruction → List String
  | .declare id =>
      let text :=
        match shader.vars.get? id with
        | some declaration => declaration.declarationText
        | none => s!"(declare {invalidHandle id})"
      [indentation depth ++ text]
  | .function id =>
      match shader.functions.get? id with
      | none => [indentation depth ++ s!"(function {invalidHandle id})"]
      | some function =>
          [indentation depth ++ s!"(function {function.name}"]
            ++ inside depth id ++ [indentation depth ++ ")"]
  | .assign target value guard =>
      let guardText :=
        match guard with
        | some condition => " " ++ condition.text shader.vars
        | none => ""
      let targetText := target.text shader.vars
      let valueText := value.text shader.vars
      [indentation depth ++ s!"(assign{guardText} {targetText} {valueText})"]
  | .call callee arguments result =>
      let name := ((shader.functions.get? callee.function).map (·.name)).getD "<invalid>"
      let resultText :=
        match result with
        | some place => place.text shader.vars ++ " "
        | none => ""
      let argumentTexts := Constant.spaced (Expr.textsOfAll shader.vars arguments)
      [indentation depth ++ s!"(call {name} {resultText}({argumentTexts}))"]
  | .branch condition accept reject =>
      [indentation depth ++ s!"(if {condition.text shader.vars}"]
        ++ Block.lines shader inside (depth + 1) accept
        ++ (if reject.isEmpty then []
            else (indentation depth ++ " else") :: Block.lines shader inside (depth + 1) reject)
        ++ [indentation depth ++ ")"]
  | .loop body =>
      [indentation depth ++ "(loop"]
        ++ Block.lines shader inside (depth + 1) body
        ++ [indentation depth ++ ")"]
  | .leave => [indentation depth ++ "(break)"]
  | .next => [indentation depth ++ "(continue)"]
  | .yield none => [indentation depth ++ "(return)"]
  | .yield (some value) => [indentation depth ++ s!"(return {value.text shader.vars})"]
  | .discard => [indentation depth ++ "(discard)"]
  | .emitVertex => [indentation depth ++ "(emit-vertex)"]
  | .endPrimitive => [indentation depth ++ "(end-primitive)"]

def Block.lines (shader : Shader) (inside : Nat → FunctionId → List String) (depth : Nat) :
    List Instruction → List String
  | [] => []
  | instruction :: rest =>
      instruction.lines shader inside depth ++ Block.lines shader inside depth rest

end

namespace Shader

/-- The line that opens a signature.  Parameters that point nowhere are left out. -/
def signatureText (shader : Shader) (signature : Signature) : String :=
  let state := if signature.isDefined then "" else " prototype"
  let parameters :=
    (signature.parameters.filterMap shader.vars.get?).map Variable.declarationText
  s!"(signature {signature.returnType.text}{state} (parameters {Constant.spaced parameters})"

/-- The lines inside a declared function, for functions declared inside one another to a given
nesting. -/
def functionLines (shader : Shader) : Nat → Nat → FunctionId → List String
  | 0, _, _ => []
  | nesting + 1, depth, id =>
      (shader.signaturesOf id).flatMap fun signature =>
        [indentation (depth + 1) ++ shader.signatureText signature]
          ++ Block.lines shader (shader.functionLines nesting) (depth + 2) signature.body
          ++ [indentation (depth + 1) ++ ")"]

/-- The lines before the instruction lists. -/
def headingLines (shader : Shader) : List String :=
  let dialect := if shader.isEs then " es" else ""
  let input :=
    shader.geometry.input.toList.map fun primitive => s!"; layout(in = {primitive.text})"
  let output :=
    shader.geometry.output.toList.map fun primitive =>
      let vertices := shader.geometry.verticesOut.getD 0
      s!"; layout(out = {primitive.text}, max_vertices = {vertices})"
  let blocks := shader.uniformBlocks.flatMap fun block =>
    s!"; uniform block {block.name} ({block.size} bytes)"
      :: block.members.map fun member =>
        s!";   {member.ty.text} {member.name} @ {member.offset}"
  s!"; {shader.stage.name} shader, version {shader.version}{dialect}" :: (input ++ output ++ blocks)

def listing (shader : Shader) : String :=
  let lines := shader.headingLines
    ++ Block.lines shader (shader.functionLines shader.functions.size) 0 shader.topLevel
  String.join (lines.map (· ++ "\n"))

end Shader
end StageLink
