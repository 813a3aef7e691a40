import StageLink.Shader

/-!
# Implicit array sizes

An array without a length gets one past the highest index that is used on it.  The member arrays of
a block instance are sized in the same way, member by member.  The members of an unnamed block are
variables of their own: once they are sized the block type is rebuilt from them.  After variables
have changed their types, the types recorded on element places follow.
-/

namespace StageLink
namespace ArraySize

/-- Give an array without a length the one that the highest index asks for. -/
def sized (highest : Nat) (ty : Ty) : Ty :=
  if ty.isUnsizedArray then ty.withLength (wrap (highest + 1)) else ty

/-- Size the member arrays of an interface type, each by the highest index used on it.  There is no
result for another type, or if no member has to be sized. -/
def sizedMembers? (highest : List Nat) : Ty → Option Ty
  | .interface name fields packing =>
      if fields.any (·.ty.isUnsizedArray) then
        some (.interface name
          (fields.zipIdx.map fun pair =>
            { pair.1 with ty := sized ((highest[pair.2]?).getD 0) pair.1.ty })
          packing)
      else
        none
  | _ => none

/-- Size a variable and the members of the block that it is an instance of. -/
def sizedVariable (declared : Variable) : Variable :=
  let declared := { declared with ty := sized declared.maxArrayAccess declared.ty }
  match declared.ty with
  | .interface name fields packing =>
      match sizedMembers? declared.maxMemberAccess (.interface name fields packing) with
      | some definition => { declared with ty := definition, interfaceType := some definition }
      | none => declared
  | .array element length =>
      match sizedMembers? declared.maxMemberAccess element with
      | some definition =>
          { declared with
            ty := .sizedArray definition (length.getD 0), interfaceType := some definition }
      | none => declared
  | _ => declared

/-- The members found so far of an unnamed block of some type, by field. -/
structure Group where
  definition : Ty
  members : List (Option VariableId)

/-- Note a member of an unnamed block. -/
def noteMember (definition : Ty) (field : Nat) (id : VariableId) : List Group → List Group
  | [] =>
      [⟨definition, (List.replicate definition.fields.length none).set field (some id)⟩]
  | group :: groups =>
      if group.definition = definition then
        { group with members := group.members.set field (some id) } :: groups
      else
        group :: noteMember definition field id groups

/-- Where a sized variable belongs as a member of an unnamed block. -/
def membership? (declared : Variable) : Option (Ty × Nat) :=
  if declared.ty.interface?.isSome then
    none
  else
    declared.interfaceType.bind fun definition =>
      (definition.fieldIndex? declared.name).map fun field => (definition, field)

/-- Size some variables in order, and group the members of unnamed blocks. -/
def sizeVariables (shader : Shader) (groups : List Group) :
    List VariableId → Checked (Shader × List Group)
  | [] => return (shader, groups)
  | id :: ids => do
      let declared := sizedVariable (← shader.fetchVariable id)
      let shader := shader.modifyVariable id fun _ => declared
      match membership? declared with
      | some (definition, field) =>
          sizeVariables shader (noteMember definition field id groups) ids
      | none => sizeVariables shader groups ids

/-- A field with the type of the variable that stands for it. -/
def memberField (shader : Shader) (field : Field Ty) (member : Option VariableId) : Field Ty :=
  match member.bind shader.vars.get? with
  | some declared => { field with ty := declared.ty }
  | none => field

/-- Rebuild the type of an unnamed block from its members and store it on each of them, if it has
changed. -/
def rebuildGroup (shader : Shader) (group : Group) : Shader :=
  match group.definition with
  | .interface name fields packing =>
      let rebuilt := List.zipWith (memberField shader) fields group.members
      if rebuilt = fields then
        shader
      else
        (group.members.filterMap id).foldl
          (fun shader member =>
            shader.modifyVariable member fun declared =>
              { declared with interfaceType := some (.interface name rebuilt packing) })
          shader
  | _ => shader

/-- The variables declared anywhere, then the parameters of the functions declared. -/
def sizedIn (shader : Shader) : Checked (List VariableId) := do
  let declared := shader.nodes.filterMap fun
    | .instruction (.declare id) => some id
    | _ => none
  let functions ← shader.declaredFunctions.mapM fun id => shader.fetchFunction id
  return declared ++ functions.flatMap fun function => function.signatures.flatMap (·.parameters)

def sizeArrays (shader : Shader) : Checked Shader := do
  let (shader, groups) ← sizeVariables shader [] (← sizedIn shader)
  return groups.foldl rebuildGroup shader

def retypePlace (vars : Arena Variable) : Place → Checked Place
  | .element array index ty => do
      let arrayType ← array.ty vars
      return .element array index (arrayType.element?.getD ty)
  | other => return other

/-- Let the types recorded on element places follow those of the variables. -/
def retypeElements (shader : Shader) : Checked Shader :=
  shader.mapBodies (Block.mapPlaces (retypePlace shader.vars))

end ArraySize
end StageLink
