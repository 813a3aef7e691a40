import StageLink.Proofs.Relisting

/-!
# Compaction renumbers only

A shader whose handles all point somewhere is the same after compaction, but for the numbers of its
handles: it is listed and judged as before, `main` is the same signature, and what is not in use is
gone.  Compacting it once more changes nothing.
-/

namespace StageLink

/-! ## Problems -/

mutual

theorem Instruction.orphanedJumps_relabel (names : Relabeling) (inLoop : Bool) :
    (instruction : Instruction) →
    (instruction.relabel names).orphanedJumps inLoop = instruction.orphanedJumps inLoop
  | .branch condition accept reject => by
      rw [Instruction.relabel, Instruction.orphanedJumps,
        Block.orphanedJumps_relabel names inLoop accept,
        Block.orphanedJumps_relabel names inLoop reject, Instruction.orphanedJumps]
  | .loop body => by
      rw [Instruction.relabel, Instruction.orphanedJumps,
        Block.orphanedJumps_relabel names true body,
        Instruction.orphanedJumps]
  | .declare _ | .function _ | .assign _ _ _ | .call _ _ _ | .leave | .next | .yield _ | .discard
  | .emitVertex | .endPrimitive => rfl

theorem Block.orphanedJumps_relabel (names : Relabeling) (inLoop : Bool) :
    (block : List Instruction) →
    Block.orphanedJumps inLoop (Block.relabel names block) = Block.orphanedJumps inLoop block
  | [] => rfl
  | instruction :: rest => by
      rw [Block.relabel, Block.orphanedJumps, instruction.orphanedJumps_relabel names inLoop,
        Block.orphanedJumps_relabel names inLoop rest, Block.orphanedJumps]

end

/-- Some variables are the same for their new handles, and no two of them share a new handle. -/
structure Preserved (before after : Arena Variable) (vars : VariableId → VariableId)
    (known : List VariableId) : Prop where
  same : ∀ id ∈ known, ∃ declared,
    before.get? id = some declared ∧ after.get? (vars id) = some declared
  apart : ∀ one ∈ known, ∀ other ∈ known, vars one = vars other → one = other

namespace Preserved

variable {before after : Arena Variable} {vars : VariableId → VariableId} {known : List VariableId}

theorem contains_map (preserved : Preserved before after vars known) {id : VariableId}
    {seen : List VariableId} (is_known : id ∈ known) (seen_known : seen ⊆ known) :
    (seen.map vars).contains (vars id) = seen.contains id := by
  rw [List.contains_eq_mem, List.contains_eq_mem, decide_eq_decide, List.mem_map]
  constructor
  · rintro ⟨other, listed, same⟩
    rwa [← preserved.apart other (seen_known listed) id is_known same]
  · exact fun listed => ⟨id, listed, rfl⟩

theorem declarationProblems_map (preserved : Preserved before after vars known)
    {ids : List VariableId} (ids_known : ids ⊆ known) :
    ∀ seen : List VariableId, seen ⊆ known →
      declarationProblems after (seen.map vars) (ids.map vars) =
        declarationProblems before seen ids := by
  induction ids with
  | nil => exact fun _ _ => rfl
  | cons id ids ih =>
      intro seen seen_known
      obtain ⟨id_known, others_known⟩ := List.cons_subset.mp ids_known
      obtain ⟨declared, found, found_now⟩ := preserved.same id id_known
      have repeated := ih others_known seen seen_known
      have fresh := ih others_known (id :: seen) (List.cons_subset.mpr ⟨id_known, seen_known⟩)
      rw [List.map_cons] at fresh
      simp only [List.map_cons, declarationProblems, found, found_now,
        preserved.contains_map id_known seen_known, repeated, fresh]

end Preserved

namespace Shader

theorem declaredIn_relabel (names : Relabeling) (nodes : List Node) :
    declaredIn (nodes.map (Node.relabel names)) = (declaredIn nodes).map names.declares := by
  rw [declaredIn, List.filterMap_map, declaredIn, List.map_filterMap]
  refine List.filterMap_congr fun node _ => ?_
  cases node with
  | instruction instruction => cases instruction <;> rfl
  | _ => rfl

theorem dereferenced_relabel (names : Relabeling) (nodes : List Node) :
    dereferenced (nodes.map (Node.relabel names)) = (dereferenced nodes).map names.mentions := by
  rw [dereferenced, List.filterMap_map, dereferenced, List.map_filterMap]
  refine List.filterMap_congr fun node _ => ?_
  cases node with
  | place place => cases place <;> rfl
  | _ => rfl

/-- The problems with uses are the same for the new handles. -/
theorem useProblems_relabel {before after : Shader} {names : Relabeling}
    {known declared : List VariableId}
    (preserved : Preserved before.vars after.vars names.mentions known)
    (declared_known : declared ⊆ known) {nodes : List Node}
    (places : ∀ id, Node.place (.whole id) ∈ nodes → id ∈ known)
    (calls : ∀ callee arguments result, Node.instruction (.call callee arguments result) ∈ nodes →
      after.calleeProblem? (names.calls callee) = before.calleeProblem? callee) :
    ∀ reported : List VariableId, reported ⊆ known →
      after.useProblems (declared.map names.mentions) (reported.map names.mentions)
          (nodes.map (Node.relabel names)) = before.useProblems declared reported nodes := by
  induction nodes with
  | nil => exact fun _ _ => rfl
  | cons node nodes ih =>
      intro reported reported_known
      have others := ih (fun id listed => places id (List.mem_cons_of_mem _ listed))
        fun callee arguments result listed =>
          calls callee arguments result (List.mem_cons_of_mem _ listed)
      have following := others reported reported_known
      cases node with
      | expr expression => exact following
      | instruction instruction =>
          cases instruction with
          | call callee arguments result =>
              have called := calls callee arguments result (List.mem_cons_self ..)
              simp only [List.map_cons, Node.relabel, Instruction.relabel, useProblems,
                called, following]
          | _ => exact following
      | place place =>
          cases place with
          | whole id =>
              have id_known := places id (List.mem_cons_self ..)
              obtain ⟨entry, found, found_now⟩ := preserved.same id id_known
              have told := others (id :: reported) (List.cons_subset.mpr ⟨id_known, reported_known⟩)
              rw [List.map_cons] at told
              simp only [List.map_cons, Node.relabel, Place.relabel, useProblems, found, found_now,
                preserved.contains_map id_known declared_known,
                preserved.contains_map id_known reported_known, following, told]
          | _ => exact following

theorem isEntry_relabel (names : Relabeling) (signature : Signature) :
    isEntry (signature.relabel names) = isEntry signature := by
  rw [isEntry, isEntry, Signature.relabel, List.isEmpty_map]

namespace Closed

variable {shader : Shader}

theorem preserved (closed : shader.Closed) :
    Preserved shader.vars shader.compacted.vars shader.moves.mentions shader.inUse where
  same id used := by
    obtain ⟨declared, found⟩ := Arena.exists_get? (closed.bound used)
    exact ⟨declared, found, (closed.vars_moved used).trans found⟩
  apart one used other used_too same := closed.moves_injective used used_too same

theorem declaredParameters_compacted (closed : shader.Closed) :
    shader.compacted.declaredParameters = shader.declaredParameters.map shader.moves.mentions := by
  rw [declaredParameters, declaredFunctions_compacted, List.flatMap_map, declaredParameters,
    List.map_flatMap]
  refine List.flatMap_congr fun id is_declared => ?_
  rw [closed.signatures_moved is_declared, List.flatMap_map, List.map_flatMap]
  rfl

theorem declaredIn_compacted (closed : shader.Closed) :
    declaredIn shader.compacted.nodes = (declaredIn shader.nodes).map shader.moves.mentions := by
  rw [closed.nodes_compacted]
  exact declaredIn_relabel ..

theorem calleeProblem_compacted (closed : shader.Closed) {callee : Callee}
    (is_declared : callee.function ∈ shader.declaredFunctions) :
    shader.compacted.calleeProblem? (shader.moves.calls callee) = shader.calleeProblem? callee := by
  have inside := closed.functions _ is_declared
  obtain ⟨function, found⟩ := Arena.exists_get? inside
  have moved : shader.compacted.functions.get? (shader.moves.calls callee).function = _ :=
    closed.functions_moved is_declared
  rw [calleeProblem?, moved, found, calleeProblem?, found]
  simp only [Option.map_some, Function.relabel, List.length_map]
  rfl

/-- No declared function is missing. -/
theorem badFunctions (closed : shader.Closed) : (shader.declaredFunctions.filterMap fun id =>
    if shader.functions.contains id then none
    else some (Problem.badHandle id shader.functions.size)) = [] := by
  refine List.filterMap_eq_nil_iff.mpr fun id is_declared => ?_
  rw [if_pos]
  simpa [Arena.contains] using closed.functions id is_declared

theorem moved_inside (closed : shader.Closed) {id : FunctionId}
    (is_declared : id ∈ shader.declaredFunctions) :
    shader.moves.functions id < shader.compacted.functions.size := by
  obtain ⟨function, found⟩ := Arena.exists_get? (closed.functions id is_declared)
  have moved := closed.functions_moved is_declared
  rw [found] at moved
  exact Arena.lt_of_get? moved

/-- The variables in use are those that were, under their new handles. -/
theorem inUse_compacted (closed : shader.Closed) :
    shader.compacted.inUse = shader.inUse.map shader.moves.mentions := by
  have placed : dereferenced shader.compacted.nodes =
      (dereferenced shader.nodes).map shader.moves.mentions := by
    rw [closed.nodes_compacted]
    exact dereferenced_relabel ..
  rw [inUse, closed.declaredIn_compacted, placed, closed.declaredParameters_compacted, inUse,
    List.map_append, List.map_append]

theorem hasCallee_compacted (closed : shader.Closed) {callee : Callee}
    (has : shader.HasCallee callee) : shader.compacted.HasCallee (shader.moves.calls callee) := by
  obtain ⟨is_declared, function, found, inside⟩ := has
  have moved : shader.compacted.functions.get? (shader.moves.calls callee).function = _ :=
    closed.functions_moved is_declared
  rw [found] at moved
  refine ⟨?_, _, moved, ?_⟩
  · rw [declaredFunctions_compacted]
    exact List.mem_map_of_mem is_declared
  · simpa [Function.relabel, moves, byTables] using inside

/-- What compaction leaves has its handles in bounds, too. -/
theorem compacted (closed : shader.Closed) : shader.compacted.Closed := by
  have used_inside : ∀ id ∈ shader.compacted.inUse, id < shader.compacted.vars.size := by
    intro id used
    rw [closed.inUse_compacted] at used
    obtain ⟨original, was_used, rfl⟩ := List.mem_map.mp used
    obtain ⟨declared, -, found⟩ := closed.preserved.same original was_used
    exact Arena.lt_of_get? found
  refine ⟨closed.on_top_compacted, ⟨fun id listed => ?_, fun id listed => ?_,
    fun callee arguments result listed => ?_⟩, fun id is_declared => ?_,
    fun id is_declared signature listed parameter inside => ?_⟩
  · exact used_inside id
      (List.mem_append_left _ (List.mem_append_left _ (mem_declaredIn.mpr listed)))
  · exact used_inside id
      (List.mem_append_left _ (List.mem_append_right _ (mem_dereferenced.mpr listed)))
  · rw [closed.nodes_compacted] at listed
    obtain ⟨node, there, same⟩ := List.mem_map.mp listed
    cases node with
    | instruction instruction =>
        cases instruction with
        | call original arguments result =>
            obtain rfl : shader.moves.calls original = callee :=
              (Instruction.call.inj (Node.instruction.inj same)).1
            exact closed.hasCallee_compacted (closed.holds.calls original arguments result there)
        | _ => cases same
    | _ => cases same
  · rw [declaredFunctions_compacted] at is_declared
    obtain ⟨original, was_declared, rfl⟩ := List.mem_map.mp is_declared
    exact closed.moved_inside was_declared
  · refine used_inside parameter (List.mem_append_right _ ?_)
    exact List.mem_flatMap.mpr ⟨id, is_declared, List.mem_flatMap.mpr ⟨signature, listed, inside⟩⟩

/-- Declared functions exist, so that what is wrong with a shader whose handles are in bounds lies
in its declarations, places and jumps. -/
theorem problems_eq (closed : shader.Closed) : shader.problems =
    declarationProblems shader.vars [] (declaredIn shader.nodes)
      ++ shader.useProblems (declaredIn shader.nodes ++ shader.declaredParameters) [] shader.nodes
      ++ Block.orphanedJumps false shader.topLevel
      ++ (shader.declaredFunctions.flatMap shader.signaturesOf).flatMap fun signature =>
        Block.orphanedJumps false signature.body := by
  rw [problems, closed.badFunctions, List.append_nil]
  rfl

/-- Compaction leaves the problems unchanged. -/
theorem problems_compacted (closed : shader.Closed) :
    shader.compacted.problems = shader.problems := by
  have declarations : declarationProblems shader.compacted.vars []
      (declaredIn shader.compacted.nodes) =
        declarationProblems shader.vars [] (declaredIn shader.nodes) := by
    rw [closed.declaredIn_compacted]
    exact closed.preserved.declarationProblems_map
      (fun id listed => List.mem_append_left _ (List.mem_append_left _ listed)) []
      (List.nil_subset _)
  have uses : shader.compacted.useProblems
      (declaredIn shader.compacted.nodes ++ shader.compacted.declaredParameters) []
      shader.compacted.nodes =
        shader.useProblems (declaredIn shader.nodes ++ shader.declaredParameters)
          [] shader.nodes := by
    rw [closed.declaredIn_compacted, closed.declaredParameters_compacted, ← List.map_append,
      closed.nodes_compacted]
    refine useProblems_relabel closed.preserved ?_ (fun id listed => ?_)
      (fun callee arguments result listed => ?_) [] (List.nil_subset _)
    · intro id listed
      rcases List.mem_append.mp listed with is_declared | parameter
      · exact List.mem_append_left _ (List.mem_append_left _ is_declared)
      · exact List.mem_append_right _ parameter
    · exact List.mem_append_left _ (List.mem_append_right _ (mem_dereferenced.mpr listed))
    · exact closed.calleeProblem_compacted (closed.holds.calls callee arguments result listed).1
  have bodies : (shader.compacted.declaredFunctions.flatMap shader.compacted.signaturesOf).flatMap
      (fun signature => Block.orphanedJumps false signature.body) =
        (shader.declaredFunctions.flatMap shader.signaturesOf).flatMap fun signature =>
          Block.orphanedJumps false signature.body := by
    rw [List.flatMap_assoc, List.flatMap_assoc, declaredFunctions_compacted, List.flatMap_map]
    refine List.flatMap_congr fun id is_declared => ?_
    rw [closed.signatures_moved is_declared, List.flatMap_map]
    exact List.flatMap_congr fun signature _ =>
      Block.orphanedJumps_relabel shader.moves false signature.body
  have topLevel : Block.orphanedJumps false shader.compacted.topLevel =
      Block.orphanedJumps false shader.topLevel :=
    Block.orphanedJumps_relabel shader.moves false shader.topLevel
  rw [closed.compacted.problems_eq, declarations, uses, topLevel, bodies, ← closed.problems_eq]

end Closed

/-! ## The main signature -/

namespace Closed

variable {shader : Shader}

theorem isNamed_compacted (closed : shader.Closed) (name : String) {id : FunctionId}
    (is_declared : id ∈ shader.declaredFunctions) :
    shader.compacted.isNamed name (shader.moves.functions id) = shader.isNamed name id := by
  rw [isNamed, closed.functions_moved is_declared, Option.any_map, isNamed]
  rfl

theorem lastNamed_compacted (closed : shader.Closed) (name : String) :
    shader.compacted.lastNamed name = (shader.lastNamed name).map shader.moves.functions := by
  have same : shader.declaredFunctions.filter
      (shader.compacted.isNamed name ∘ shader.moves.functions) =
        shader.declaredFunctions.filter (shader.isNamed name) :=
    List.filter_congr fun _ is_declared => closed.isNamed_compacted name is_declared
  rw [lastNamed, declaredFunctions_compacted, List.filter_map, List.getLast?_map, same, lastNamed]

/-- The main signature goes with its function, if the symbol table has been up to date. -/
theorem mainSignature_compacted (closed : shader.Closed) (populated : shader.Populated) :
    shader.compacted.mainSignature? = shader.mainSignature?.map shader.moves.calls := by
  have bound : shader.symbols.functions.get? "main" = shader.lastNamed "main" :=
    (populated.functions "main").trans (populateSymbols_function "main")
  have bound_now : shader.compacted.symbols.functions.get? "main" =
      shader.compacted.lastNamed "main" := populateSymbols_function "main"
  rw [mainSignature?, bound_now, closed.lastNamed_compacted, mainSignature?, bound]
  cases last : shader.lastNamed "main" with
  | none => rfl
  | some id =>
      have is_declared : id ∈ shader.declaredFunctions :=
        (List.mem_filter.mp (List.mem_of_getLast? last)).1
      have entry :
        ((shader.signaturesOf id).map (Signature.relabel shader.moves)).findIdx? isEntry =
          (shader.signaturesOf id).findIdx? isEntry := by
        rw [List.findIdx?_map]
        exact congrArg (List.findIdx? · _) (funext (isEntry_relabel shader.moves))
      change ((shader.compacted.signaturesOf (shader.moves.functions id)).findIdx? isEntry >>= _) =
        Option.map _ ((shader.signaturesOf id).findIdx? isEntry >>= _)
      rw [closed.signatures_moved is_declared, entry]
      cases (shader.signaturesOf id).findIdx? isEntry <;> rfl

theorem calleeLines_compacted (closed : shader.Closed) {callee : Callee}
    (is_declared : callee.function ∈ shader.declaredFunctions) :
    shader.compacted.calleeLines (shader.moves.calls callee) = shader.calleeLines callee := by
  have signatures : shader.compacted.signaturesOf (shader.moves.calls callee).function = _ :=
    closed.signatures_moved is_declared
  rw [calleeLines, signatures, List.getElem?_map, Option.map_map, calleeLines]
  refine Option.map_congr fun signature there => ?_
  exact closed.signatureLines_compacted is_declared (List.mem_of_getElem? there) _ _ 0

end Closed

end Shader

/-! ## Nothing is left to drop -/

theorem Signature.relabel_same (signature : Signature) : signature.relabel .same = signature := by
  rw [Signature.relabel, Block.relabel_same]
  exact congrArg (fun parameters => { signature with parameters := parameters })
    (List.map_id signature.parameters)

theorem Function.relabel_same (function : Function) : function.relabel .same = function := by
  rw [Function.relabel, funext Signature.relabel_same, List.map_id']

namespace Shader

/-- Where everything is in use, compaction only rebuilds the symbol table. -/
theorem compacted_of_full {shader : Shader} (vars : ∀ id < shader.vars.size, id ∈ shader.inUse)
    (functions : ∀ id < shader.functions.size, id ∈ shader.declaredFunctions) :
    shader.compacted = shader.populateSymbols := by
  obtain ⟨same_vars, vars_stay⟩ :
      (shader.vars.compact shader.isLive).1 = shader.vars ∧
        ∀ id, Arena.movedBy shader.variableTable id = id :=
    Arena.compact_all fun id inside => isLive_iff.mpr (vars id inside)
  obtain ⟨same_functions, functions_stay⟩ :
      shader.keptFunctions = shader.functions ∧
        ∀ id, Arena.movedBy shader.functionTable id = id :=
    Arena.compact_all fun id inside => by simpa using functions id inside
  have moves : shader.moves = .same := by
    simp only [Shader.moves, byTables, funext vars_stay, funext functions_stay, Relabeling.same]
  have relabeled : shader.functions.map (Function.relabel .same) = shader.functions := by
    rw [Arena.map, funext Function.relabel_same, List.map_id']
  rw [compacted, moves, Block.relabel_same, same_vars, same_functions, relabeled]

namespace Closed

variable {shader : Shader}

theorem full_compacted (closed : shader.Closed) :
    (∀ id < shader.compacted.vars.size, id ∈ shader.compacted.inUse) ∧
      ∀ id < shader.compacted.functions.size, id ∈ shader.compacted.declaredFunctions := by
  refine ⟨fun target inside => ?_, fun target inside => ?_⟩
  · obtain ⟨declared, found⟩ := Arena.exists_get? inside
    obtain ⟨id, -, live, row⟩ := Arena.compact_origin
      (show (shader.vars.compact shader.isLive).1.get? target = some declared from found)
    have moved : shader.moves.mentions id = target := Arena.movedBy_of_row row
    rw [closed.inUse_compacted, ← moved]
    exact List.mem_map_of_mem (isLive_iff.mp live)
  · obtain ⟨function, found⟩ := Arena.exists_get? inside
    have kept : (shader.keptFunctions.map (Function.relabel shader.moves)).get? target =
        some function := found
    rw [Arena.get?_map] at kept
    obtain ⟨original, was_there, -⟩ := Option.map_eq_some_iff.mp kept
    obtain ⟨id, -, keeps, row⟩ := Arena.compact_origin was_there
    have moved : shader.moves.functions id = target := Arena.movedBy_of_row row
    rw [declaredFunctions_compacted, ← moved]
    exact List.mem_map_of_mem (by simpa using keeps)

/-- Compacting once more changes nothing. -/
theorem compact_compacted (closed : shader.Closed) :
    shader.compacted.compact = .ok shader.compacted := by
  obtain ⟨vars, functions⟩ := closed.full_compacted
  rw [closed.compacted.bounded.compact_eq, compacted_of_full vars functions]
  exact congrArg Except.ok (populateSymbols_populateSymbols _)

end Closed

/-! ## The whole -/

/-- A shader is another one with renumbered handles, of which it has only those in use. -/
structure Renumbers (names : Relabeling) (before after : Shader) : Prop where
  /-- Nothing but handles is changed, and the symbol table is the rebuilt one. -/
  same : after = populateSymbols { before with
    vars := after.vars, functions := after.functions, topLevel := after.topLevel }
  topLevel : after.topLevel = Block.relabel names before.topLevel
  /-- The variables in use are left, in their order. -/
  vars : after.vars.entries =
    (before.vars.indexed.filter fun pair => pair.1 ∈ before.inUse).map (·.2)
  /-- The declared functions are left, in their order. -/
  functions : after.functions.entries =
    (before.functions.indexed.filter fun pair => pair.1 ∈ before.declaredFunctions).map
      fun pair => pair.2.relabel names
  moved : ∀ id ∈ before.inUse, after.vars.get? (names.mentions id) = before.vars.get? id
  listing : after.listing = before.listing
  problems : after.problems = before.problems
  /-- The main signature, if there is one, is listed as before. -/
  main : before.Populated → Option.Rel (fun callee other => ∃ lines,
    before.calleeLines callee = some lines ∧ after.calleeLines other = some lines)
    before.mainSignature? after.mainSignature?

theorem exists_calleeLines {shader : Shader} (populated : shader.Populated) {main : Callee}
    (found : shader.mainSignature? = some main) :
    main.function ∈ shader.declaredFunctions ∧ ∃ lines, shader.calleeLines main = some lines := by
  have has := populated.hasMain found
  obtain ⟨signature, there, -⟩ := has.exists_at
  refine ⟨has.named.1, Option.isSome_iff_exists.mp ?_⟩
  rw [calleeLines, there]
  rfl

/-- Compaction renumbers a shader whose handles are in bounds, and does nothing else: the listing,
the problems and the main signature are what they were, what is left is what is in use, the symbol
table has been rebuilt, and compacting once more changes nothing. -/
theorem Closed.compact_renumbers {before : Shader} (closed : before.Closed) :
    ∃ names after, before.compact = .ok after ∧ Renumbers names before after ∧
      after.compact = .ok after := by
  refine ⟨before.moves, before.compacted, closed.bounded.compact_eq, ?_, closed.compact_compacted⟩
  refine ⟨rfl, rfl, ?_, ?_, fun id => closed.vars_moved, closed.listing_compacted,
    closed.problems_compacted, fun populated => ?_⟩
  · have kept : (fun pair : Nat × Variable => before.isLive pair.1) =
        fun pair => decide (pair.1 ∈ before.inUse) :=
      funext fun pair => Bool.eq_iff_iff.mpr (isLive_iff.trans decide_eq_true_iff.symm)
    exact (before.vars.compact_entries before.isLive).trans (by rw [kept])
  · have kept : (fun pair : Nat × Function => before.declaredFunctions.contains pair.1) =
        fun pair => decide (pair.1 ∈ before.declaredFunctions) :=
      funext fun pair => List.contains_eq_mem ..
    have entries := before.functions.compact_entries before.declaredFunctions.contains
    rw [kept] at entries
    change before.keptFunctions.entries.map (Function.relabel before.moves) = _
    rw [keptFunctions, entries, List.map_map]
    rfl
  · rw [closed.mainSignature_compacted populated]
    cases found : before.mainSignature? with
    | none => exact .none
    | some main =>
        obtain ⟨is_declared, lines, listed⟩ := exists_calleeLines populated found
        exact .some ⟨lines, listed, (closed.calleeLines_compacted is_declared).trans listed⟩

theorem WellFormed.closed {shader : Shader} (formed : shader.WellFormed) : shader.Closed :=
  ⟨formed.on_top, formed.holds, formed.functions, formed.parameters⟩

/-- A variable and a function of it are no longer declared, nor is the parameter of the function. -/
def sparse : Shader :=
  ({ stage := .fragment
     version := 330
     vars := ⟨[.vector "spare" .plain, .vector "shade" .shaderOut, .vector "tint" .plain,
       .vector "given" .plain, .vector "value" .plain]⟩
     functions := ⟨[
       { name := "forgotten", signatures := [.define .void [3] [.copy 0 3]] },
       { name := "helper", signatures := [.define .void [4] [.copy 1 4]] },
       { name := "main", signatures := [.define .void []
         [.declare 2, .call ⟨1, 0⟩ [.ofVariable 2] none]] }]⟩
     topLevel := [.declare 1, .function 1, .function 2] } : Shader).populateSymbols

theorem sparse_renumbers : sparse.vars.size = 5 ∧ sparse.functions.size = 3 ∧ sparse.Closed ∧
    ∃ names after, sparse.compact = .ok after ∧ Renumbers names sparse after ∧
      after.compact = .ok after ∧ after.vars.size = 3 ∧ after.functions.size = 2 := by
  have closed : sparse.Closed :=
    (wellFormed_of_check (by decide +kernel) (populated_populateSymbols _)).closed
  obtain ⟨names, after, compacts, renumbers, again⟩ := closed.compact_renumbers
  refine ⟨rfl, rfl, closed, names, after, compacts, renumbers, again, ?_, ?_⟩
  · rw [Arena.size, renumbers.vars]
    decide +kernel
  · rw [Arena.size, renumbers.functions, List.length_map]
    decide +kernel

end Shader
end StageLink
