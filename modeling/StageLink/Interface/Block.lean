import StageLink.Declaration.Agreement

/-!
# Interface blocks

Blocks of one name and one mode must be defined alike in the units of a stage, and an output block
of a stage like the input block of its name in the next stage.  A member array without a length
agrees with one that has a length.
-/

namespace StageLink
namespace InterfaceBlock

/-- Whether two members agree. -/
def membersMatch (left right : Field Ty) : Bool :=
  left.name = right.name && left.rowMajor = right.rowMajor
    && (left.ty = right.ty || Declaration.unifiable left.ty right.ty)

/-- Whether two types are interface types with definitions that agree. -/
def definitionsMatch : Ty → Ty → Bool
  | .interface name fields packing, .interface name' fields' packing' =>
      name = name' && packing = packing' && fields.length = fields'.length
        && (fields.zip fields').all fun pair => membersMatch pair.1 pair.2
  | _, _ => false

/-- Whether variables of a mode can belong to an interface block. -/
def isBlockMode : VariableMode → Bool
  | .shaderIn | .shaderOut | .uniform => true
  | _ => false

/-- A block as one declaration shows it. -/
structure Sighting where
  mode : VariableMode
  name : String
  definition : Ty

/-- The block that a declaration belongs to. -/
def sighting? (declared : Variable) : Option Sighting :=
  if isBlockMode declared.mode then
    match declared.interfaceType with
    | some definition => definition.name?.map fun name => ⟨declared.mode, name, definition⟩
    | none => none
  else
    none

/-- Compare the blocks of some globals with the first ones seen of the same name and mode. -/
def checkUnitsFrom : List Sighting → List (Shader × VariableId) → Judged Unit
  | _, [] => return ()
  | seen, (shader, id) :: rest => do
      let declared ← shader.fetchVariable id
      match sighting? declared with
      | none => checkUnitsFrom seen rest
      | some block =>
          match seen.find? fun first => first.mode = block.mode && first.name = block.name with
          | none => checkUnitsFrom (seen ++ [block]) rest
          | some first =>
              if definitionsMatch first.definition block.definition then
                checkUnitsFrom seen rest
              else
                Judged.reject (.interfaceBlockMismatch block.name)

/-- Check that the units of one stage define their blocks alike. -/
def checkUnits (units : List Shader) : Judged Unit :=
  checkUnitsFrom [] (units.flatMap fun unit => unit.globals.map fun id => (unit, id))

/-- The block of a declaration in a given mode, by its name. -/
def inMode? (mode : VariableMode) (declared : Variable) : Option (String × Ty) :=
  if declared.mode = mode then
    declared.interfaceType.bind fun definition =>
      definition.name?.map fun name => (name, definition)
  else
    none

def checkInputs (outputs : NameTable Ty) (consumer : Shader) : List VariableId → Judged Unit
  | [] => return ()
  | id :: ids => do
      let declared ← consumer.fetchVariable id
      match inMode? .shaderIn declared with
      | none => checkInputs outputs consumer ids
      | some (name, input) =>
          match outputs.get? name with
          | none => checkInputs outputs consumer ids
          | some output =>
              if definitionsMatch output input then checkInputs outputs consumer ids
              else Judged.reject (.interfaceBlockMismatch name)

/-- Check the output blocks of a stage against the input blocks of the next. -/
def checkBoundary (producer consumer : Shader) : Judged Unit := do
  let declared ← producer.globals.mapM fun id => producer.fetchVariable id
  let outputs := NameTable.ofList (declared.filterMap (inMode? .shaderOut))
  checkInputs outputs consumer consumer.globals

end InterfaceBlock
end StageLink
