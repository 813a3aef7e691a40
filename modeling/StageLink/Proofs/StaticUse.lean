import StageLink.Proofs.Checking
import StageLink.Proofs.Placement
import StageLink.Proofs.Searches
import StageLink.Proofs.Unfailing
import StageLink.Proofs.Whereabouts

/-!
# Static use

A shader is said to write to a name if, wherever in its lists, it assigns to a variable of that
name, or a call returns into one, or a call is given one, possibly swizzled, for a parameter that it
can write through.  It is said to mention the name if a place anywhere is a variable of that name.
Where all handles point somewhere the answers are exactly that, and searching for the first node
that decides gives the same answers: `Shader.usage_exact`.
-/

namespace StageLink

/-- The expression reads the place, or takes components of something that does. -/
inductive Expr.Swizzles (place : Place) : Expr → Prop
  | load : Expr.Swizzles place (.load place)
  | swizzle {value : Expr} {components : List Nat} {ty : Ty} :
      Expr.Swizzles place value → Expr.Swizzles place (.swizzle value components ty)

theorem Expr.swizzles_iff {expression : Expr} {place : Place} :
    expression.Swizzles place ↔ expression.writtenPlace? = some place := by
  constructor
  · intro swizzles
    induction swizzles with
    | load => rfl
    | swizzle _ ih => exact ih
  · induction expression using Expr.writtenPlace?.induct with
    | case1 loaded =>
        intro written
        obtain rfl := Option.some.inj written
        exact .load
    | case2 value components ty ih => exact fun written => .swizzle (ih written)
    | case3 expression not_load not_swizzle =>
        intro written
        unfold Expr.writtenPlace? at written
        split at written
        · exact absurd rfl (not_load _)
        · exact absurd rfl (not_swizzle _ _ _)
        · cases written

theorem VariableMode.isWritableParameter_iff {mode : VariableMode} :
    mode.isWritableParameter = true ↔ mode = .functionOut ∨ mode = .functionInout := by
  cases mode <;> decide

namespace Shader

variable {shader : Shader} {name : String}

def Named (shader : Shader) (name : String) (id : VariableId) : Prop :=
  ∃ declared, shader.vars.get? id = some declared ∧ declared.name = name

/-- A call writes through one of its arguments to a variable of the name. -/
def Passes (shader : Shader) (name : String) (arguments : List Expr)
    (parameters : List VariableId) : Prop :=
  ∃ (position : Nat) (argument : Expr) (parameter : VariableId) (declared : Variable)
    (place : Place),
    arguments[position]? = some argument ∧ parameters[position]? = some parameter ∧
    shader.vars.get? parameter = some declared ∧
    (declared.mode = .functionOut ∨ declared.mode = .functionInout) ∧
    argument.Swizzles place ∧ shader.Named name place.root

/-- The instruction itself writes to a variable of the name. -/
inductive StoresTo (shader : Shader) (name : String) : Instruction → Prop
  | assigns {target : Place} {value : Expr} {guard : Option Expr}
      (named : shader.Named name target.root) :
      StoresTo shader name (.assign target value guard)
  | returns {callee : Callee} {arguments : List Expr} {result : Place}
      (named : shader.Named name result.root) :
      StoresTo shader name (.call callee arguments (some result))
  | passes {callee : Callee} {arguments : List Expr} {result : Option Place} {signature : Signature}
      (there : shader.At callee signature)
      (passes : shader.Passes name arguments signature.parameters) :
      StoresTo shader name (.call callee arguments result)

/-- Somewhere an instruction writes to a variable of the name. -/
def WritesTo (shader : Shader) (name : String) : Prop :=
  ∃ instruction, shader.Visits (.instruction instruction) ∧ shader.StoresTo name instruction

/-- Somewhere a place is a variable of the name. -/
def Mentions (shader : Shader) (name : String) : Prop :=
  ∃ id, shader.Visits (.place (.whole id)) ∧ shader.Named name id

/-! ## Nodes that write -/

theorem liesIn_eq_ok {place : Place} {answer : Bool}
    (asks : shader.liesIn name place = .ok answer) :
    answer = true ↔ shader.Named name place.root := by
  obtain ⟨declared, fetched, decides⟩ := Checked.bind_eq_ok.mp asks
  obtain rfl := Checked.pure_eq_ok.mp decides
  have found := fetchVariable_eq_ok.mp fetched
  rw [decide_eq_true_iff]
  constructor
  · exact fun named => ⟨declared, found, named⟩
  · rintro ⟨other, found_too, named⟩
    obtain rfl := Option.some.inj (found.symm.trans found_too)
    exact named

theorem optionLiesIn_eq_ok {place : Option Place} {answer : Bool}
    (asks : shader.optionLiesIn name place = .ok answer) :
    answer = true ↔ ∃ target, place = some target ∧ shader.Named name target.root := by
  cases place with
  | none =>
      obtain rfl := Checked.pure_eq_ok.mp asks
      simp
  | some target =>
      rw [liesIn_eq_ok asks]
      simp

/-- A call writes through its first argument or through another one. -/
theorem passes_cons {argument : Expr} {arguments : List Expr} {parameter : VariableId}
    {parameters : List VariableId} :
    shader.Passes name (argument :: arguments) (parameter :: parameters) ↔
      (∃ declared place, shader.vars.get? parameter = some declared ∧
        (declared.mode = .functionOut ∨ declared.mode = .functionInout) ∧
        argument.Swizzles place ∧ shader.Named name place.root) ∨
      shader.Passes name arguments parameters := by
  constructor
  · rintro ⟨position, argument', parameter', declared, place, given, received, rest⟩
    cases position with
    | zero =>
        cases given
        cases received
        exact .inl ⟨declared, place, rest⟩
    | succ position =>
        exact .inr ⟨position, argument', parameter', declared, place, given, received, rest⟩
  · rintro (⟨declared, place, rest⟩ |
      ⟨position, argument', parameter', declared, place, given, received, rest⟩)
    · exact ⟨0, argument, parameter, declared, place, rfl, rfl, rest⟩
    · exact ⟨position + 1, argument', parameter', declared, place, given, received, rest⟩

theorem argumentsWrite_eq_ok {arguments : List Expr} {parameters : List VariableId} {answer : Bool}
    (asks : shader.argumentsWrite name arguments parameters = .ok answer) :
    answer = true ↔ shader.Passes name arguments parameters := by
  induction arguments generalizing parameters with
  | nil =>
      obtain rfl : false = answer := by simpa [argumentsWrite] using asks
      simp [Passes]
  | cons argument arguments ih =>
      cases parameters with
      | nil =>
          obtain rfl : false = answer := by simpa [argumentsWrite] using asks
          simp [Passes]
      | cons parameter parameters =>
          rw [argumentsWrite] at asks
          obtain ⟨declared, fetched, following⟩ := Checked.bind_eq_ok.mp asks
          have found := fetchVariable_eq_ok.mp fetched
          rw [passes_cons]
          split at following
          · next writable =>
              obtain ⟨here, decides, following⟩ := Checked.bind_eq_ok.mp following
              have lies := optionLiesIn_eq_ok decides
              cases here with
              | true =>
                  obtain rfl : true = answer := Checked.pure_eq_ok.mp following
                  obtain ⟨place, written, named⟩ := lies.mp rfl
                  exact iff_of_true rfl (.inl ⟨declared, place, found,
                    VariableMode.isWritableParameter_iff.mp writable,
                      Expr.swizzles_iff.mpr written, named⟩)
              | false =>
                  rw [ih following, or_iff_right]
                  rintro ⟨-, place, -, -, denotes, named⟩
                  exact Bool.false_ne_true (lies.mpr ⟨place, Expr.swizzles_iff.mp denotes, named⟩)
          · next not_writable =>
              rw [ih following, or_iff_right]
              rintro ⟨other, -, found_too, writable, -, -⟩
              obtain rfl := Option.some.inj (found.symm.trans found_too)
              exact not_writable (VariableMode.isWritableParameter_iff.mpr writable)

theorem nodeWrites_eq_ok {node : Node} {answer : Bool}
    (asks : shader.nodeWrites name node = .ok answer) : answer = true ↔
      ∃ instruction, node = .instruction instruction ∧ shader.StoresTo name instruction := by
  unfold nodeWrites at asks
  split at asks
  · next target value guard =>
      rw [liesIn_eq_ok asks]
      constructor
      · exact fun named => ⟨_, rfl, .assigns named⟩
      · rintro ⟨_, same, stores⟩
        cases same
        cases stores with
        | assigns named => exact named
  · next callee arguments result =>
      obtain ⟨signature, fetched, following⟩ := Checked.bind_eq_ok.mp asks
      obtain ⟨through, decides, following⟩ := Checked.bind_eq_ok.mp following
      have there := fetchSignature_eq_ok.mp fetched
      have passes := argumentsWrite_eq_ok decides
      cases through with
      | true =>
          obtain rfl : true = answer := Checked.pure_eq_ok.mp following
          exact iff_of_true rfl ⟨_, rfl, .passes there (passes.mp rfl)⟩
      | false =>
          rw [optionLiesIn_eq_ok following]
          constructor
          · rintro ⟨target, rfl, named⟩
            exact ⟨_, rfl, .returns named⟩
          · rintro ⟨_, same, stores⟩
            cases same
            cases stores with
            | returns named => exact ⟨_, rfl, named⟩
            | passes there_too given =>
                obtain rfl := there.unique there_too
                exact absurd (passes.mpr given) Bool.false_ne_true
  · next not_assign not_call =>
      obtain rfl : false = answer := Checked.pure_eq_ok.mp asks
      refine iff_of_false Bool.false_ne_true ?_
      rintro ⟨_, rfl, stores⟩
      cases stores with
      | assigns _ => exact not_assign _ _ _ rfl
      | returns _ | passes _ _ => exact not_call _ _ _ rfl

/-! ## Answers -/

theorem writes_iff (enclosed : shader.Enclosed) (on_top : shader.FunctionsOnTop) {answer : Bool}
    (asks : shader.writes name = .ok answer) : answer = true ↔ shader.WritesTo name := by
  rw [Checked.anyM_eq_ok asks, WritesTo]
  constructor
  · rintro ⟨node, listed, decides⟩
    obtain ⟨instruction, rfl, stores⟩ := (nodeWrites_eq_ok decides).mp rfl
    exact ⟨instruction, (visits_instruction on_top).mpr listed, stores⟩
  · rintro ⟨instruction, there, stores⟩
    have listed := (visits_instruction on_top).mp there
    obtain ⟨here, decides⟩ := enclosed.exists_nodeWrites name listed
    obtain rfl := (nodeWrites_eq_ok decides).mpr ⟨instruction, rfl, stores⟩
    exact ⟨_, listed, decides⟩

theorem mentions_iff (on_top : shader.FunctionsOnTop) {answer : Bool}
    (asks : shader.mentions name = .ok answer) : answer = true ↔ shader.Mentions name := by
  rw [mentions_eq_ok asks, Dereferences, Mentions]
  constructor
  · rintro ⟨id, declared, listed, found, named⟩
    exact ⟨id, (visits_place on_top).mpr listed, declared, found, named⟩
  · rintro ⟨id, there, declared, found, named⟩
    exact ⟨id, declared, (visits_place on_top).mp there, found, named⟩

/-! ## Searching -/

/-- Whether a node holds operands only, none of which writes. -/
def passesOver : Node → Bool
  | .instruction (.assign _ _ _) | .instruction (.call _ _ _) => true
  | _ => false

theorem anyM_operands {nodes : List Node}
    (no_instruction : ∀ inner, Node.instruction inner ∉ nodes) :
    nodes.anyM (shader.nodeWrites name) = pure false := by
  induction nodes with
  | nil => rfl
  | cons node nodes ih =>
      rw [List.anyM_cons, ih fun inner listed => no_instruction inner
        (List.mem_cons_of_mem _ listed)]
      cases node with
      | instruction inner => exact absurd List.mem_cons_self (no_instruction inner)
      | expr expression => rfl
      | place place => rfl

/-- The search for a node that writes, which passes over operands, finds one exactly if there is
one. -/
theorem walk_writes (shader : Shader) (name : String) :
    shader.walk (searching (shader.nodeWrites name) passesOver) = not <$> shader.writes name := by
  apply walk_searching
  intro inside node passed
  unfold passesOver at passed
  split at passed
  · next target value guard =>
      exact anyM_operands (Instruction.operands_no_instruction (.assign target value guard))
  · next callee arguments result =>
      exact anyM_operands (Instruction.operands_no_instruction (.call callee arguments result))
  · cases passed

/-- The search for a variable finds one exactly if there is one. -/
theorem walk_mentions (shader : Shader) (name : String) :
    shader.walk (searching (shader.nodeMentions name) fun _ => false) =
      not <$> shader.mentions name := by
  apply walk_searching
  intro inside node passed
  cases passed

/-! ## Exactness -/

/-- Where all handles point somewhere a shader tells exactly whether it writes to a name and whether
it mentions it, by looking at all its nodes as well as by a search that stops at the first one. -/
theorem usage_exact (enclosed : shader.Enclosed) (on_top : shader.FunctionsOnTop) (name : String) :
    ∃ written mentioned, shader.writes name = .ok written ∧ shader.mentions name = .ok mentioned ∧
      (written = true ↔ shader.WritesTo name) ∧ (mentioned = true ↔ shader.Mentions name) ∧
      shader.walk (searching (shader.nodeWrites name) passesOver) = .ok (!written) ∧
      shader.walk (searching (shader.nodeMentions name) fun _ => false) = .ok (!mentioned) := by
  obtain ⟨written, writes⟩ := enclosed.exists_writes name
  obtain ⟨mentioned, mentions⟩ := enclosed.confined.exists_mentions name
  have search_writes := walk_writes shader name
  have search_mentions := walk_mentions shader name
  rw [writes] at search_writes
  rw [mentions] at search_mentions
  exact ⟨written, mentioned, writes, mentions, writes_iff enclosed on_top writes,
    mentions_iff on_top mentions, search_writes, search_mentions⟩

/-- In a loop, the vertex position is filled in by a call that is given two of its components. -/
def lent : Shader :=
  let twoOf (id : VariableId) : Expr := .swizzle (.load (.whole id)) [0, 1] (.floatVector .two)
  populateSymbols { ofParts .vertex [.vector "gl_Position" .shaderOut, .vector "corner" .uniform,
        .vector "target" .functionOut, .vector "origin" .functionIn]
      [.ofBody "main" [.loop
          [.branch (.load (.whole 1)) [.call ⟨1, 0⟩ [twoOf 0, twoOf 1] none] [.leave]]],
        { name := "place"
          signatures := [.define .void [2, 3] [.copy 2 3]] }] with
    topLevel := [.declare 0, .declare 1, .function 0, .function 1] }

theorem lent_usage_exact : lent.Enclosed ∧ lent.FunctionsOnTop ∧
    lent.WritesTo "gl_Position" ∧ ¬ lent.WritesTo "corner" ∧ lent.Mentions "corner" := by
  have formed : lent.WellFormed :=
    wellFormed_of_check (by decide +kernel) (populated_populateSymbols _)
  have closed : lent.Closed := ⟨formed.on_top, formed.holds, formed.functions, formed.parameters⟩
  have sound := problems_eq_nil.mp (show lent.problems = [] by decide +kernel)
  have enclosed := sound.enclosed (closed.uncheckedBound (by decide +kernel))
  obtain ⟨_, _, writes, -, exact_writes, -⟩ := usage_exact enclosed formed.on_top "gl_Position"
  obtain ⟨_, _, no_writes, mentions, exact_no_writes, exact_mentions, -⟩ :=
    usage_exact enclosed formed.on_top "corner"
  cases writes.symm.trans (show lent.writes "gl_Position" = .ok true by decide +kernel)
  cases no_writes.symm.trans (show lent.writes "corner" = .ok false by decide +kernel)
  cases mentions.symm.trans (show lent.mentions "corner" = .ok true by decide +kernel)
  exact ⟨enclosed, formed.on_top, exact_writes.mp rfl,
    fun written => Bool.false_ne_true (exact_no_writes.mpr written), exact_mentions.mp rfl⟩

end Shader
end StageLink
