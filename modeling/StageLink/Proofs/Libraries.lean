import StageLink.Proofs.CallGraph
import StageLink.Proofs.Faultless
import StageLink.Proofs.Layout
import StageLink.Proofs.Settling

/-!
# Definitions in libraries

A library defines a function with a name and parameter types if it declares a function of the name
with a defined signature of the types.  In a well-formed library, whose functions have different
names, looking for a definition finds it if there is one.
-/

namespace StageLink
namespace Shader

/-- The symbol table answers as if it had just been rebuilt. -/
structure Populated (shader : Shader) : Prop where
  vars : ∀ name, shader.symbols.vars.get? name = shader.populateSymbols.symbols.vars.get? name
  functions : ∀ name,
    shader.symbols.functions.get? name = shader.populateSymbols.symbols.functions.get? name

/-- Handles point somewhere, functions are declared only at the top level, what is called is
declared, the symbol table is populated, and no function has two signatures with the same parameter
types. -/
structure WellFormed (shader : Shader) : Prop where
  holds : shader.Holds shader.nodes
  functions : ∀ id ∈ shader.declaredFunctions, id < shader.functions.size
  parameters : ∀ id ∈ shader.declaredFunctions, ∀ signature ∈ shader.signaturesOf id,
    ∀ parameter ∈ signature.parameters, parameter < shader.vars.size
  on_top : shader.FunctionsOnTop
  populated : shader.Populated
  once : ∀ {one other : Callee} {name types}, one.function ∈ shader.declaredFunctions →
    one.function = other.function → shader.HasKey one name types → shader.HasKey other name types →
    one = other

/-- No two functions are declared with the same name. -/
def NamesApart (shader : Shader) : Prop :=
  ∀ one ∈ shader.declaredFunctions, ∀ other ∈ shader.declaredFunctions,
    (shader.functions.get? one).map (·.name) = (shader.functions.get? other).map (·.name) →
    one = other

/-! ## Symbol tables -/

theorem Populated.coherent {shader : Shader} (populated : shader.Populated)
    (bound : ∀ id ∈ shader.globals, id < shader.vars.size) : shader.Coherent := by
  have rebuilt := populateSymbols_coherent bound
  refine ⟨bound, fun id global declared found => ?_, fun {name id} named => ?_,
    fun {name id} named => ?_⟩
  · rw [populated.vars]
    exact rebuilt.known id global declared found
  · rw [populated.vars] at named
    exact rebuilt.variable_of named
  · rw [populated.functions] at named
    exact rebuilt.function_of named

section Names

variable {shader : Shader}

theorem Populated.lastNamed (populated : shader.Populated) (name : String) :
    shader.symbols.functions.get? name = shader.lastNamed name :=
  (populated.functions name).trans (populateSymbols_function name)

theorem Populated.isNamed (populated : shader.Populated) {name : String} {id : FunctionId}
    (bound : shader.symbols.functions.get? name = some id) :
    id ∈ shader.declaredFunctions ∧ shader.isNamed name id = true := by
  rw [populated.lastNamed] at bound
  exact List.mem_filter.mp (List.mem_of_getLast? bound)

/-- The main signature is that of the last function that is declared as `main`. -/
theorem Populated.hasMain (populated : shader.Populated) {main : Callee}
    (found : shader.mainSignature? = some main) : shader.HasMain main := by
  obtain ⟨bound, entry⟩ := mainSignature?_eq_some.mp found
  exact ⟨bound, (populated.lastNamed "main").symm.trans bound, entry⟩

theorem NamesApart.same_named (apart : shader.NamesApart) {name : String} :
    ∀ one ∈ shader.declaredFunctions.filter (shader.isNamed name),
      ∀ other ∈ shader.declaredFunctions.filter (shader.isNamed name), one = other := by
  intro one listed other listed_too
  obtain ⟨is_declared, named⟩ := List.mem_filter.mp listed
  obtain ⟨is_declared_too, named_too⟩ := List.mem_filter.mp listed_too
  exact apart one is_declared other is_declared_too
    ((isNamed_iff.mp named).trans (isNamed_iff.mp named_too).symm)

theorem Populated.exists_named (populated : shader.Populated) {id : FunctionId}
    {function : Function} (is_declared : id ∈ shader.declaredFunctions)
    (found : shader.functions.get? id = some function) :
    ∃ other, shader.symbols.functions.get? function.name = some other := by
  have listed : id ∈ shader.declaredFunctions.filter (shader.isNamed function.name) :=
    List.mem_filter.mpr ⟨is_declared, isNamed_iff.mpr (by rw [found]; rfl)⟩
  rw [populated.lastNamed, Shader.lastNamed]
  exact Option.isSome_iff_exists.mp (List.getLast?_isSome.mpr (List.ne_nil_of_mem listed))

theorem Populated.knows (populated : shader.Populated) (apart : shader.NamesApart) {id : FunctionId}
    {function : Function} (is_declared : id ∈ shader.declaredFunctions)
    (found : shader.functions.get? id = some function) :
    shader.symbols.functions.get? function.name = some id := by
  obtain ⟨other, bound⟩ := populated.exists_named is_declared found
  obtain ⟨other_declared, named⟩ := populated.isNamed bound
  have same_name : (shader.functions.get? other).map (·.name) =
      (shader.functions.get? id).map (·.name) := by
    rw [found]
    exact isNamed_iff.mp named
  rw [bound, apart other other_declared id is_declared same_name]

end Names

namespace WellFormed

variable {shader : Shader}

theorem coherent (formed : shader.WellFormed) : shader.Coherent := by
  refine formed.populated.coherent fun id global => ?_
  refine formed.holds.declares id (Block.nodes_of_own _ _ ?_)
  exact Block.mem_ownNodes.mpr ⟨_, mem_globals.mp global, List.mem_singleton.mpr rfl⟩

theorem sturdy (formed : shader.WellFormed) : shader.Sturdy := ⟨formed.coherent, formed.parameters⟩

end WellFormed

/-! ## Deciding -/

/-- The handle that a node itself holds points somewhere. -/
def isHeld (shader : Shader) : Node → Bool
  | .instruction (.declare id) => id < shader.vars.size
  | .instruction (.call callee _ _) =>
      shader.declaredFunctions.contains callee.function &&
        callee.signature < (shader.signaturesOf callee.function).length
  | .place (.whole id) => id < shader.vars.size
  | _ => true

def declaresFunction : Node → Bool
  | .instruction (.function _) => true
  | _ => false

/-- Whether an instruction list declares no function. -/
def isFunctionFree (block : Block) : Bool := block.ownNodes.all (!declaresFunction ·)

/-- Whether the shader is well formed, apart from its symbol table. -/
def isWellFormed (shader : Shader) : Bool :=
  shader.nodes.all shader.isHeld && isFunctionFree (shader.topLevel.filter CloneM.isNoFunction) &&
    shader.declaredFunctions.all fun id =>
      decide (id < shader.functions.size) &&
        (shader.signaturesOf id).all (fun signature =>
          signature.parameters.all (· < shader.vars.size) && isFunctionFree signature.body) &&
        decide ((shader.signaturesOf id).map fun signature =>
          (shader.typesOf signature.parameters).toOption).Nodup

theorem functionFree_of_check {block : Block} (check : isFunctionFree block = true) :
    block.FunctionFree := by
  intro id listed
  have := List.all_eq_true.mp check _ listed
  cases this

theorem HasKey.types_at {shader : Shader} {callee : Callee} {name : String} {types : List Ty}
    (has : shader.HasKey callee name types) :
    ((shader.signaturesOf callee.function).map fun signature =>
      (shader.typesOf signature.parameters).toOption)[callee.signature]? = some (some types) := by
  obtain ⟨signature, there, typed⟩ := has.exists_at
  rw [List.getElem?_map, show _ = some signature from there, Option.map_some, typed]
  rfl

/-- A shader that passes the check and has a populated symbol table is well formed. -/
theorem wellFormed_of_check {shader : Shader} (check : shader.isWellFormed = true)
    (populated : shader.Populated) : shader.WellFormed := by
  simp only [isWellFormed, Bool.and_eq_true, List.all_eq_true, decide_eq_true_eq] at check
  obtain ⟨⟨held, statements⟩, functions⟩ := check
  exact
    { holds :=
        { declares := fun id listed => by simpa [isHeld] using held _ listed
          mentions := fun id listed => by simpa [isHeld] using held _ listed
          calls := fun callee arguments result listed => by
            obtain ⟨is_declared, inside⟩ : callee.function ∈ shader.declaredFunctions ∧
                callee.signature < (shader.signaturesOf callee.function).length := by
              simpa [isHeld] using held _ listed
            have there : shader.At callee _ := List.getElem?_eq_getElem inside
            obtain ⟨function, found, at_position⟩ := there.function
            exact ⟨is_declared, function, found, (List.getElem?_eq_some_iff.mp at_position).1⟩ }
      functions := fun id is_declared => (functions id is_declared).1.1
      parameters := fun id is_declared signature listed =>
        ((functions id is_declared).1.2 signature listed).1
      on_top :=
        { statements := functionFree_of_check statements
          bodies := fun id is_declared signature listed =>
            functionFree_of_check ((functions id is_declared).1.2 signature listed).2 }
      populated := populated
      once := by
        rintro ⟨function, position⟩ ⟨function', position'⟩ name types is_declared same has has_too
        obtain rfl : function = function' := same
        have at_one := has.types_at
        have at_other := has_too.types_at
        have inside := (List.getElem?_eq_some_iff.mp at_one).1
        have same_position := (List.getElem?_inj inside (functions function is_declared).2).mp
          (at_one.trans at_other.symm)
        exact congrArg (Callee.mk function) same_position }

theorem enterSymbols_congr {before after : Shader} (vars : after.vars = before.vars)
    (functions : after.functions = before.functions) (block : Block) (symbols : SymbolTable) :
    after.enterSymbols symbols block = before.enterSymbols symbols block := by
  induction block generalizing symbols with
  | nil => rfl
  | cons instruction rest ih =>
      cases instruction with
      | declare id => simp only [enterSymbols, vars, ih]
      | function id => simp only [enterSymbols, functions, ih]
      | _ => simp only [enterSymbols, ih]

/-- A symbol table that has just been rebuilt stays the same. -/
theorem populateSymbols_populateSymbols (shader : Shader) :
    shader.populateSymbols.populateSymbols = shader.populateSymbols := by
  have same : shader.populateSymbols.enterSymbols {} shader.topLevel =
      shader.enterSymbols {} shader.topLevel :=
    @enterSymbols_congr shader shader.populateSymbols rfl rfl shader.topLevel {}
  exact congrArg (fun symbols => { shader with symbols := symbols }) same

theorem populated_populateSymbols (shader : Shader) : shader.populateSymbols.Populated := by
  have same := populateSymbols_populateSymbols shader
  exact ⟨fun name => by rw [same], fun name => by rw [same]⟩

def Defines (shader : Shader) (name : String) (types : List Ty) (definition : Signature) : Prop :=
  ∃ callee, callee.function ∈ shader.declaredFunctions ∧ shader.HasKey callee name types ∧
    shader.At callee definition ∧ definition.isDefined = true

end Shader

namespace Resolution

open Shader

/-- The first of some libraries that defines a function with a name and types, and its
definition. -/
inductive FirstDefines (name : String) (types : List Ty) : List Shader → Shader → Signature → Prop
  | here {library libraries definition} : library.Defines name types definition →
      FirstDefines name types (library :: libraries) library definition
  | later {first libraries library definition} :
    (∀ signature, ¬ first.Defines name types signature) →
      FirstDefines name types libraries library definition →
      FirstDefines name types (first :: libraries) library definition

theorem FirstDefines.defines {name : String} {types : List Ty} {libraries : List Shader}
    {library : Shader} {definition : Signature}
    (first : FirstDefines name types libraries library definition) :
    library ∈ libraries ∧ library.Defines name types definition := by
  induction first with
  | here defines => exact ⟨List.mem_cons_self .., defines⟩
  | later _ _ ih => exact ⟨List.mem_cons_of_mem _ ih.1, ih.2⟩

def Tells (library : Shader) (name : String) (types : List Ty) : Option Signature → Prop
  | some definition => library.Defines name types definition
  | none => ∀ definition, ¬ library.Defines name types definition

theorem definitionIn_tells {library : Shader} (formed : library.WellFormed)
    (apart : library.NamesApart) (name : String) (types : List Ty) :
    ∃ answer, definitionIn library name types = .ok answer ∧ Tells library name types answer := by
  unfold definitionIn
  cases bound : library.symbols.functions.get? name with
  | none =>
      refine ⟨none, rfl, ?_⟩
      rintro definition ⟨callee, is_declared, ⟨function, _, found, rfl, -, -⟩, -⟩
      obtain ⟨other, named⟩ := formed.populated.exists_named is_declared found
      rw [bound] at named
      cases named
  | some id =>
      obtain ⟨is_declared, function, found, named⟩ := formed.coherent.function_of bound
      obtain ⟨position, looks⟩ := formed.sturdy.exists_findSignature bound types
      have only : ∀ callee signature, callee.function ∈ library.declaredFunctions →
          library.HasKey callee name types → library.At callee signature → callee.function = id ∧
            library.typesOf signature.parameters = .ok types ∧
            signature ∈ function.signatures := by
        rintro callee signature also_declared ⟨other, held, found_other, rfl,
          at_position, typed⟩ there
        obtain rfl := apart _ also_declared _ is_declared (by simp [found_other, found, named])
        obtain rfl : other = function := Option.some.inj (found_other.symm.trans found)
        rw [At, signaturesOf_eq found] at there
        obtain rfl := Option.some.inj (there.symm.trans at_position)
        exact ⟨rfl, typed, List.mem_of_getElem? there⟩
      have spec := looks
      rw [findSignature_eq found] at spec
      have told := findSignatureFrom_spec spec
      cases position with
      | none =>
          refine ⟨none, by dsimp only; rw [looks]; rfl, ?_⟩
          rintro definition ⟨callee, also_declared, has, there, -⟩
          obtain ⟨-, typed, listed⟩ := only callee definition also_declared has there
          exact told definition listed typed
      | some place =>
          obtain ⟨offset, signature, same, at_place, typed⟩ := told
          rw [Nat.zero_add] at same
          subst same
          have there : library.At ⟨id, place⟩ signature := by
            rw [At, signaturesOf_eq found]
            exact at_place
          have has : library.HasKey ⟨id, place⟩ name types :=
            ⟨function, signature, found, named, at_place, typed⟩
          have chosen : (library.signaturesOf id)[place]? = some signature := there
          refine ⟨(some signature).filter (·.isDefined), ?_, ?_⟩
          · dsimp only
            rw [looks, Checked.ok_bind]
            dsimp only
            rw [chosen]
            rfl
          · cases is_defined : signature.isDefined with
            | true =>
                rw [Option.filter_some_pos is_defined]
                exact ⟨⟨id, place⟩, is_declared, has, there, is_defined⟩
            | false =>
                rw [Option.filter_some_neg (by simp [is_defined])]
                rintro definition ⟨callee, also_declared, has_too, there_too, defined⟩
                obtain ⟨same, -, -⟩ := only callee definition also_declared has_too there_too
                obtain rfl := formed.once is_declared same.symm has has_too
                rw [there_too.unique there, is_defined] at defined
                cases defined

/-- A search through the libraries finds the definition of the first that has one. -/
theorem definitionAmong_tells {libraries : List Shader}
    (formed : ∀ library ∈ libraries, library.WellFormed ∧ library.NamesApart) (name : String)
    (types : List Ty) :
    ∃ answer, definitionAmong name types libraries = .ok answer ∧
      match answer with
      | some (library, definition) => FirstDefines name types libraries library definition
      | none => ∀ library ∈ libraries, ∀ definition, ¬ library.Defines name types definition := by
  induction libraries with
  | nil => exact ⟨none, rfl, by simp⟩
  | cons library libraries ih =>
      obtain ⟨here, apart⟩ := formed library (List.mem_cons_self ..)
      obtain ⟨answer, looks, tells⟩ := definitionIn_tells here apart name types
      rw [definitionAmong, looks, Checked.ok_bind]
      cases answer with
      | some definition =>
          exact ⟨some (library, definition), rfl, .here tells⟩
      | none =>
          obtain ⟨later, among, told⟩ :=
            ih fun other listed => formed other (List.mem_cons_of_mem _ listed)
          refine ⟨later, among, ?_⟩
          cases later with
          | none =>
              intro other listed
              rcases List.mem_cons.mp listed with rfl | there
              · exact tells
              · exact told other there
          | some pair => exact .later tells told

theorem Defines.unique {library : Shader} (formed : library.WellFormed) (apart : library.NamesApart)
    {name : String} {types : List Ty} {one other : Signature}
    (first : library.Defines name types one) (second : library.Defines name types other) :
    one = other := by
  obtain ⟨callee, is_declared, has, there, -⟩ := first
  obtain ⟨callee', is_declared', has', there', -⟩ := second
  have same : callee.function = callee'.function := by
    obtain ⟨function, _, found, named, -, -⟩ := has
    obtain ⟨function', _, found', named', -, -⟩ := has'
    exact apart _ is_declared _ is_declared' (by simp [found, found', named, named'])
  obtain rfl := formed.once is_declared same has has'
  exact there.unique there'

theorem FirstDefines.unique {libraries : List Shader}
    (formed : ∀ library ∈ libraries, library.WellFormed ∧ library.NamesApart) {name : String}
    {types : List Ty} {library other : Shader} {definition signature : Signature}
    (first : FirstDefines name types libraries library definition)
    (second : FirstDefines name types libraries other signature) :
    library = other ∧ definition = signature := by
  induction first with
  | here defines =>
      cases second with
      | here defines_too =>
          obtain ⟨here, apart⟩ := formed _ (List.mem_cons_self ..)
          exact ⟨rfl, Defines.unique here apart defines defines_too⟩
      | later lacks _ => exact absurd defines (lacks _)
  | later lacks _ ih =>
      cases second with
      | here defines_too => exact absurd defines_too (lacks _)
      | later _ second =>
          exact ih (fun library listed => formed library (List.mem_cons_of_mem _ listed)) second

/-! ## What has to be defined -/

/-- The names and types that have to be defined by a library: those of the signatures without
definition that the executable calls, and those that the definitions cloned for them call, unless
the executable defines them. -/
inductive Wanted (libraries : List Shader) (executable : Shader) : String → List Ty → Prop
  | called {callee signature name types} : callee ∈ callees executable.nodes →
      executable.At callee signature → signature.isDefined = false →
      executable.HasKey callee name types → Wanted libraries executable name types
  | cloned {name types library definition callee other others} :
      Wanted libraries executable name types →
      FirstDefines name types libraries library definition →
      callee ∈ callees definition.body.ownNodes → library.HasKey callee other others →
      (∀ own signature, executable.Finds other others own → executable.At own signature →
        signature.isDefined = false) →
      Wanted libraries executable other others

end Resolution
end StageLink
