import StageLink.Shader
import StageLink.Proofs.Execution

/-!
# Runs of functions

A semantics says what constants and operators come to, and what it means to read and to write part
of a variable.  Evaluating an expression always gives a value, which depends only on the variables
that occur in the expression, and has no effect.  What writes variables are assignments and calls: a
call gives parameters the values of the arguments, and when it comes back it stores the values of
the parameters that are passed back, and what it returns.
-/

namespace StageLink

/-- All that is left open about the values of expressions and about calls. -/
structure Semantics where
  Value : Type
  constant : Constant → Value
  unary : UnaryOperator → Value → Ty → Value
  binary : BinaryOperator → Value → Value → Ty → Value
  swizzle : Value → List Nat → Ty → Value
  compose : Ty → List Value → Value
  texture : Value → Value → Ty → Value
  /-- What is held in part of a variable, given the value of the variable. -/
  read : Location Value → Value → Value
  /-- The value of a variable after a value has been stored in part of it. -/
  write : Location Value → Value → Value → Value
  holds : Value → Bool
  /-- Whether each call has a variable for itself. -/
  isLocal : VariableId → Bool
  /-- The value with which such a variable starts. -/
  initial : VariableId → Value
  /-- What a signature without a body leaves in its parameters, and what it returns. -/
  external : Callee → List Value → List Value × Option Value

namespace Semantics

variable (semantics : Semantics)

/-- The values of all variables. -/
abbrev Store := VariableId → semantics.Value

/-- What a run lets be seen: its choices and calls, and what it emits. -/
inductive Event where
  | decided (decision : Decision)
  | called (callee : Callee)
  | emitVertex (store : semantics.Store)
  | endPrimitive (store : semantics.Store)

/-- What a run does. -/
abbrev Run := Execution semantics.Store semantics.Event semantics.Value

variable {semantics}

/-! ## Values -/

section Values

variable (store : semantics.Store)

mutual

/-- The way to a place from the variable it lies in. -/
def path : Place → List (Location.Step semantics.Value)
  | .whole _ => []
  | .element array index ty => path array ++ [.element (value index) ty]
  | .field record name ty => path record ++ [.field name ty]

/-- The value of an expression. -/
def value : Expr → semantics.Value
  | .constant given => semantics.constant given
  | .load place => semantics.read ⟨place.root, path place⟩ (store place.root)
  | .unary operator operand ty => semantics.unary operator (value operand) ty
  | .binary operator left right ty => semantics.binary operator (value left) (value right) ty
  | .swizzle inner positions ty => semantics.swizzle (value inner) positions ty
  | .compose ty components => semantics.compose ty (values components)
  | .texture sampler coordinate ty =>
      semantics.texture (semantics.read ⟨sampler.root, path sampler⟩ (store sampler.root))
        (value coordinate) ty

def values : List Expr → List semantics.Value
  | [] => []
  | expression :: expressions => value expression :: values expressions

end

/-- The storage that a place denotes. -/
def locate (place : Place) : Location semantics.Value := ⟨place.root, path store place⟩

/-- The storage that an argument denotes. -/
def locate? : Expr → Option (Location semantics.Value)
  | .load place => some (locate store place)
  | .swizzle inner positions ty => (locate? inner).map (Location.part · (.select positions ty))
  | _ => none

def put (location : Location semantics.Value) (given : semantics.Value) : semantics.Store :=
  Function.update store location.root (semantics.write location (store location.root) given)

end Values

/-! ## Calls -/

/-- Give variables some values, as far as there are values. -/
def bind (store : semantics.Store) : List VariableId → List semantics.Value → semantics.Store
  | id :: ids, given :: rest => bind (Function.update store id given) ids rest
  | _, _ => store

def passBack (left : semantics.Store) :
    List (VariableId × Location semantics.Value) → semantics.Store → semantics.Store
  | [], store => store
  | (parameter, location) :: rest, store => passBack left rest (put store location (left parameter))

/-- The store in which a body is run, if the call is made in the given store. -/
def entry (store : semantics.Store) (parameters : List VariableId) (given : List semantics.Value) :
    semantics.Store :=
  bind (fun id => if semantics.isLocal id then semantics.initial id else store id) parameters given

/-- The store after a call that has been made in the given store, when the body has left another one
and has returned something. -/
def exit (store : semantics.Store) (back : List (VariableId × Location semantics.Value))
    (target : Option (Location semantics.Value)) (left : semantics.Store)
    (returned : Option semantics.Value) : semantics.Store :=
  let outer := fun id => if semantics.isLocal id then store id else left id
  let passed := passBack left back outer
  match target, returned with
  | some location, some result => put passed location result
  | _, _ => passed

def passedBack (shader : Shader) (store : semantics.Store) (parameters : List VariableId)
    (arguments : List Expr) : List (VariableId × Location semantics.Value) :=
  (parameters.zip arguments).filterMap fun pair =>
    match shader.vars.get? pair.1 with
    | some declaration =>
        if declaration.mode = .functionOut ∨ declaration.mode = .functionInout then
          (locate? store pair.2).map (pair.1, ·)
        else
          none
    | none => none

def call (shader : Shader) (run : Block → semantics.Store → semantics.Run) (callee : Callee)
    (arguments : List Expr) (result : Option Place) (store : semantics.Store) : semantics.Run :=
  match (shader.signaturesOf callee.function)[callee.signature]? with
  | none => { state := store, ending := .undefined }
  | some signature =>
      let given := values store arguments
      let entered := entry store signature.parameters given
      let inner : semantics.Run :=
        if signature.isDefined then
          run signature.body entered
        else
          let (left, returned) := semantics.external callee given
          { state := bind entered signature.parameters left, ending := .yield returned }
      (inner.returning (exit store (passedBack shader store signature.parameters arguments)
        (result.map (locate store)))).following [.called callee]

def operationsOf
    (invoke : Callee → List Expr → Option Place → semantics.Store → semantics.Run) :
    Operations semantics.Store semantics.Event semantics.Value where
  declare _ store := store
  assign target given store := some (put store (locate store target) (value store given))
  holds condition store := some (semantics.holds (value store condition))
  value given store := some (value store given)
  call := invoke
  emitVertex := .emitVertex
  endPrimitive := .endPrimitive
  decided decision _ := [.decided decision]

variable (semantics)

/-- What calls do in a shader if they are made inside one another to a depth. -/
def calls (shader : Shader) (bound : Nat) :
    Nat → Callee → List Expr → Option Place → semantics.Store → semantics.Run
  | 0 => fun _ _ _ store => { state := store, ending := .exhausted }
  | depth + 1 => call shader (Block.execute (operationsOf (calls shader bound depth)) bound)

def run (shader : Shader) (bound depth : Nat) (callee : Callee) (store : semantics.Store) :
    semantics.Run :=
  match (shader.signaturesOf callee.function)[callee.signature]? with
  | none => { state := store, ending := .undefined }
  | some signature =>
      Block.execute (operationsOf (semantics.calls shader bound depth)) bound signature.body store

variable {semantics}

/-! ## Agreement -/

/-- No variable of some kind occurs in the nodes. -/
def Avoids (lost : VariableId → Prop) (nodes : List Node) : Prop :=
  ∀ id, Node.place (.whole id) ∈ nodes → ¬ lost id

/-- The same values, except of variables of some kind. -/
def AgreeOff (lost : VariableId → Prop) (store other : semantics.Store) : Prop :=
  ∀ id, ¬ lost id → store id = other id

/-- The same choice or call, or emissions with the same values except of variables of some kind. -/
inductive Event.Agree (lost : VariableId → Prop) : semantics.Event → semantics.Event → Prop
  | decided {decision} : Event.Agree lost (.decided decision) (.decided decision)
  | called {callee} : Event.Agree lost (.called callee) (.called callee)
  | emitVertex {store other} : AgreeOff lost store other →
      Event.Agree lost (.emitVertex store) (.emitVertex other)
  | endPrimitive {store other} : AgreeOff lost store other →
      Event.Agree lost (.endPrimitive store) (.endPrimitive other)

/-- Runs that take the same choices, end in the same way, and agree throughout on all variables but
those of some kind. -/
abbrev Run.Agree (lost : VariableId → Prop) : semantics.Run → semantics.Run → Prop :=
  Execution.Related (AgreeOff lost) (Event.Agree lost)

section Agreement

variable {lost : VariableId → Prop}

theorem Avoids.mono {nodes others : List Node} (avoids : Avoids lost others)
    (part : ∀ node ∈ nodes, node ∈ others) : Avoids lost nodes :=
  fun id listed => avoids id (part _ listed)

theorem AgreeOff.refl (store : semantics.Store) : AgreeOff lost store store := fun _ _ => rfl

theorem AgreeOff.trans {store middle other : semantics.Store} (one : AgreeOff lost store middle)
    (more : AgreeOff lost middle other) : AgreeOff lost store other :=
  fun id found => (one id found).trans (more id found)

theorem AgreeOff.mono {lost_too : VariableId → Prop} {store other : semantics.Store}
    (agree : AgreeOff lost store other) (weaker : ∀ id, lost id → lost_too id) :
    AgreeOff lost_too store other :=
  fun id found => agree id fun was => found (weaker id was)

theorem Event.Agree.trans {event middle other : semantics.Event}
    (one : Event.Agree lost event middle) (more : Event.Agree lost middle other) :
    Event.Agree lost event other := by
  cases one with
  | decided => exact more
  | called => exact more
  | emitVertex stores =>
      cases more with
      | emitVertex others => exact .emitVertex (stores.trans others)
  | endPrimitive stores =>
      cases more with
      | endPrimitive others => exact .endPrimitive (stores.trans others)

theorem Event.Agree.mono {lost_too : VariableId → Prop} {event other : semantics.Event}
    (agree : Event.Agree lost event other) (weaker : ∀ id, lost id → lost_too id) :
    Event.Agree lost_too event other := by
  cases agree with
  | decided => exact .decided
  | called => exact .called
  | emitVertex stores => exact .emitVertex (stores.mono weaker)
  | endPrimitive stores => exact .endPrimitive (stores.mono weaker)

theorem Event.Agree.refl : (event : semantics.Event) → Event.Agree lost event event
  | .decided _ => .decided
  | .called _ => .called
  | .emitVertex store => .emitVertex (.refl store)
  | .endPrimitive store => .endPrimitive (.refl store)

theorem Run.Agree.refl (run : semantics.Run) : Run.Agree lost run run :=
  ⟨.refl run.state, List.forall₂_same.mpr fun event _ => .refl event, rfl⟩

theorem Run.Agree.trans {first second third : semantics.Run} (one : Run.Agree lost first second)
    (other : Run.Agree lost second third) : Run.Agree lost first third :=
  Execution.Related.trans one other (fun _ _ _ => AgreeOff.trans) fun _ _ _ => Event.Agree.trans

theorem Run.Agree.mono {lost_too : VariableId → Prop} {first second : semantics.Run}
    (agree : Run.Agree lost first second) (weaker : ∀ id, lost id → lost_too id) :
    Run.Agree lost_too first second :=
  Execution.Related.mono agree (fun _ _ stores => stores.mono weaker) fun _ _ events =>
    events.mono weaker

variable {store other : semantics.Store}

/-! ### Evaluation -/

theorem mem_nodes_root (place : Place) : Node.place (.whole place.root) ∈ place.nodes := by
  cases place with
  | whole id => simp [Place.root, Place.nodes]
  | element array index ty => simp [Place.root, Place.nodes, mem_nodes_root array]
  | field record name ty => simp [Place.root, Place.nodes, mem_nodes_root record]

def indexNodes : Place → List Node
  | .whole _ => []
  | .element array index _ => indexNodes array ++ index.nodes
  | .field record _ _ => indexNodes record

theorem mem_nodes_of_mem_indexNodes (place : Place) :
    ∀ node ∈ indexNodes place, node ∈ place.nodes := by
  intro node listed
  cases place with
  | whole id => cases listed
  | element array index ty =>
      rw [indexNodes, List.mem_append] at listed
      rw [Place.nodes, List.mem_cons, List.mem_append]
      exact .inr (listed.imp_left (mem_nodes_of_mem_indexNodes array node))
  | field record name ty =>
      rw [Place.nodes, List.mem_cons]
      exact .inr (mem_nodes_of_mem_indexNodes record node listed)

mutual

theorem path_eq (agree : AgreeOff lost store other) : (place : Place) →
    Avoids lost (indexNodes place) → path store place = path other place
  | .whole _, _ => rfl
  | .element array index _, avoids => by
      rw [path, path, path_eq agree array (avoids.mono fun _ => List.mem_append_left _),
        value_eq agree index (avoids.mono fun _ => List.mem_append_right _)]
  | .field record _ _, avoids => by rw [path, path, path_eq agree record avoids]

theorem value_eq (agree : AgreeOff lost store other) : (expression : Expr) →
    Avoids lost expression.nodes → value store expression = value other expression
  | .constant _, _ => rfl
  | .load place, avoids => by
      have inside : Avoids lost place.nodes := avoids.mono fun _ => List.mem_cons_of_mem _
      rw [value, value, agree _ (inside _ (mem_nodes_root place)),
        path_eq agree place (inside.mono (mem_nodes_of_mem_indexNodes place))]
  | .unary _ operand _, avoids => by
      rw [value, value, value_eq agree operand (avoids.mono fun _ => List.mem_cons_of_mem _)]
  | .binary _ left right _, avoids => by
      have inside : Avoids lost (left.nodes ++ right.nodes) :=
        avoids.mono fun _ => List.mem_cons_of_mem _
      rw [value, value, value_eq agree left (inside.mono fun _ => List.mem_append_left _),
        value_eq agree right (inside.mono fun _ => List.mem_append_right _)]
  | .swizzle inner _ _, avoids => by
      rw [value, value, value_eq agree inner (avoids.mono fun _ => List.mem_cons_of_mem _)]
  | .compose _ components, avoids => by
      have inside : Avoids lost (Expr.nodesOfAll components) :=
        avoids.mono fun _ listed => by
          rw [Expr.nodes]
          exact List.mem_cons_of_mem _ listed
      rw [value, value, values_eq agree components inside]
  | .texture sampler coordinate _, avoids => by
      have inside : Avoids lost (sampler.nodes ++ coordinate.nodes) :=
        avoids.mono fun _ => List.mem_cons_of_mem _
      have in_sampler : Avoids lost sampler.nodes := inside.mono fun _ => List.mem_append_left _
      rw [value, value, agree _ (in_sampler _ (mem_nodes_root sampler)),
        path_eq agree sampler (in_sampler.mono (mem_nodes_of_mem_indexNodes sampler)),
        value_eq agree coordinate (inside.mono fun _ => List.mem_append_right _)]

theorem values_eq (agree : AgreeOff lost store other) : (expressions : List Expr) →
    Avoids lost (Expr.nodesOfAll expressions) → values store expressions = values other expressions
  | [], _ => rfl
  | expression :: expressions, avoids => by
      rw [Expr.nodesOfAll] at avoids
      rw [values, values, value_eq agree expression (avoids.mono fun _ => List.mem_append_left _),
        values_eq agree expressions (avoids.mono fun _ => List.mem_append_right _)]

end

theorem locate_eq (agree : AgreeOff lost store other) {place : Place}
    (avoids : Avoids lost (indexNodes place)) : locate store place = locate other place := by
  rw [locate, locate, path_eq agree place avoids]

theorem locate?_eq (agree : AgreeOff lost store other) : (expression : Expr) →
    Avoids lost expression.nodes → locate? store expression = locate? other expression
  | .load place, avoids => by
      have inside : Avoids lost place.nodes := avoids.mono fun _ => List.mem_cons_of_mem _
      rw [locate?, locate?, locate_eq agree (inside.mono (mem_nodes_of_mem_indexNodes place))]
  | .swizzle inner _ _, avoids => by
      rw [locate?, locate?, locate?_eq agree inner (avoids.mono fun _ => List.mem_cons_of_mem _)]
  | .constant _, _ | .unary _ _ _, _ | .binary _ _ _ _, _ | .compose _ _, _
  | .texture _ _ _, _ => rfl

/-! ### Storing -/

theorem AgreeOff.update (agree : AgreeOff lost store other) (id : VariableId)
    (given : semantics.Value) :
    AgreeOff lost (Function.update store id given) (Function.update other id given) := by
  intro found kept
  by_cases same : found = id
  · rw [same, Function.update_self, Function.update_self]
  · rw [Function.update_of_ne same, Function.update_of_ne same, agree found kept]

/-- Agreement survives storing a value in a variable on which the stores agree. -/
theorem AgreeOff.put (agree : AgreeOff lost store other) {location : Location semantics.Value}
    (kept : ¬ lost location.root) (given : semantics.Value) :
    AgreeOff lost (put store location given) (put other location given) := by
  rw [Semantics.put, Semantics.put, agree _ kept]
  exact agree.update _ _

/-- It survives storing a value in a variable on which they need not agree. -/
theorem AgreeOff.put_lost (agree : AgreeOff lost store other) {location : Location semantics.Value}
    (dead : lost location.root) (given : semantics.Value) :
    AgreeOff lost (Semantics.put store location given) other := by
  intro id kept
  have elsewhere : id ≠ location.root := fun same => kept (same ▸ dead)
  rw [Semantics.put, Function.update_of_ne elsewhere]
  exact agree id kept

theorem AgreeOff.bind (agree : AgreeOff lost store other) (ids : List VariableId)
    (given : List semantics.Value) :
    AgreeOff lost (Semantics.bind store ids given) (Semantics.bind other ids given) := by
  induction ids generalizing store other given with
  | nil => exact agree
  | cons id ids ih =>
      cases given with
      | nil => exact agree
      | cons first rest => exact ih (agree.update id first) rest

theorem AgreeOff.entry (agree : AgreeOff lost store other) (parameters : List VariableId)
    (given : List semantics.Value) :
    AgreeOff lost (Semantics.entry store parameters given)
      (Semantics.entry other parameters given) := by
  refine AgreeOff.bind (fun id kept => ?_) parameters given
  rw [agree id kept]

theorem AgreeOff.passBack {left reached : semantics.Store} (agree : AgreeOff lost left reached)
    (back : List (VariableId × Location semantics.Value))
    (kept : ∀ pair ∈ back, ¬ lost pair.1 ∧ ¬ lost pair.2.root)
    (outer : AgreeOff lost store other) :
    AgreeOff lost (Semantics.passBack left back store) (Semantics.passBack reached back other) := by
  induction back generalizing store other with
  | nil => exact outer
  | cons pair back ih =>
      obtain ⟨parameter_kept, root_kept⟩ := kept pair (List.mem_cons_self ..)
      rw [Semantics.passBack, Semantics.passBack, agree _ parameter_kept]
      exact ih (fun later listed => kept later (List.mem_cons_of_mem _ listed))
        (outer.put root_kept _)

/-- What a call stores when it comes back keeps the agreement, if it goes to variables on which the
stores agree and comes from such parameters. -/
theorem AgreeOff.exit (agree : AgreeOff lost store other)
    {back : List (VariableId × Location semantics.Value)}
    (kept : ∀ pair ∈ back, ¬ lost pair.1 ∧ ¬ lost pair.2.root)
    {target : Option (Location semantics.Value)}
    (kept_target : ∀ location ∈ target, ¬ lost location.root) {left reached : semantics.Store}
    (inner : AgreeOff lost left reached) (returned : Option semantics.Value) :
    AgreeOff lost (Semantics.exit store back target left returned)
      (Semantics.exit other back target reached returned) := by
  have outer : AgreeOff lost (fun id => if semantics.isLocal id then store id else left id)
      (fun id => if semantics.isLocal id then other id else reached id) :=
    fun id found => by simp only [agree id found, inner id found]
  have passed := inner.passBack back kept outer
  cases target with
  | none => exact passed
  | some location =>
      cases returned with
      | none => exact passed
      | some result => exact passed.put (kept_target location rfl) result

end Agreement
end Semantics
end StageLink
