import StageLink.Proofs.Accesses
import StageLink.Proofs.Connected

/-!
# Arrays that are long enough

Where the declarations that stand for their names in a stage lead all that is used and declared in
its units and libraries, every stored executable keeps its constant indices inside its arrays,
however the link ends.
-/

namespace StageLink

open Variable

/-! ## Sizing -/

namespace ArraySize

/-- A variable that is sized reaches what is noted on it, if its length was not too short. -/
theorem reaching_of_sizeVariables {id : VariableId} {ids : List VariableId} :
    ∀ {shader result : Shader} {groups found : List Group} {declared sized : Variable},
      sizeVariables shader groups ids = .ok (result, found) → id ∈ ids →
      shader.vars.get? id = some declared → declared.maxArrayAccess + 1 < UInt32.size →
      declared.MayReach → result.vars.get? id = some sized → sized.Reaching := by
  induction ids with
  | nil => exact fun _ listed => by cases listed
  | cons first ids ih =>
      intro shader result groups found declared sized runs listed was counted may now
      rw [sizeVariables] at runs
      obtain ⟨declared_first, fetched, following⟩ := Checked.bind_eq_ok.mp runs
      have first_was := Shader.fetchVariable_eq_ok.mp fetched
      let changed := shader.modifyVariable first fun _ => sizedVariable declared_first
      have rest : ∃ groups, sizeVariables changed groups ids = .ok (result, found) := by
        dsimp only at following
        split at following
        · exact ⟨_, following⟩
        · exact ⟨_, following⟩
      obtain ⟨groups, runs_rest⟩ := rest
      by_cases same : first = id
      · subst same
        obtain rfl := Option.some.inj (first_was.symm.trans was)
        have here : changed.vars.get? first = some (sizedVariable declared_first) := by
          simp [changed, Shader.modifyVariable, Arena.get?_modify, was]
        have revised : Shader.Revised (Continues Variable.Reaching) changed result :=
          Merge.sizeVariables_revised .refl .trans (fun declared =>
            continues_sizedVariable declared Reaching.sizedVariable) runs_rest
        obtain ⟨origin, before, continues⟩ := revised.origin now
        obtain rfl := Option.some.inj (here.symm.trans before)
        exact continues.keeps (reaching_sizedVariable counted may)
      · have later : id ∈ ids := (List.mem_cons.mp listed).resolve_left fun equal => same equal.symm
        refine ih runs_rest later ?_ counted may now
        simpa [changed, Shader.modifyVariable, Arena.get?_modify, same] using was

/-- Sizing all arrays makes globals reach what is noted on them, if no length was too short. -/
theorem reaching_of_sizeArrays {shader result : Shader} (noted : shader.Noted)
    (may : ∀ declared ∈ shader.declaredVariables, declared.MayReach)
    (runs : sizeArrays shader = .ok result) : result.Reaching := by
  have revised : Shader.Revised NotesMore shader result :=
    (Merge.sizeArrays_revised (@Continues.refl fun _ => True) Continues.trans
      (fun declared => continues_sizedVariable declared fun _ => trivial)
      (fun _ _ => ⟨.of_same rfl rfl, fun _ => trivial⟩) runs).imp fun _ _ => Continues.toNotesMore
  refine ⟨noted.revised (fun _ _ => id) revised, fun last listed => ?_⟩
  obtain ⟨ids, lists, following⟩ := Checked.bind_eq_ok.mp runs
  obtain ⟨⟨sized, groups⟩, sizes, finish⟩ := Checked.bind_eq_ok.mp following
  obtain rfl := Checked.pure_eq_ok.mp finish
  obtain ⟨functions, -, lists⟩ := Checked.bind_eq_ok.mp lists
  obtain rfl := Checked.pure_eq_ok.mp lists
  -- Rebuilding blocks changes no lengths.
  have rebuilt : Shader.Revised (Continues Variable.Reaching) sized
    (groups.foldl rebuildGroup sized) :=
    .foldl .refl .trans (Merge.rebuildGroup_revised .refl .trans
      fun _ _ => ⟨.of_same rfl rfl, fun reaching => reaching⟩) _ _
  obtain ⟨id, global, now⟩ := Shader.mem_declaredVariables.mp listed
  rw [revised.globals] at global
  obtain ⟨halfway, in_sized, continues⟩ := rebuilt.origin now
  obtain ⟨declared, was⟩ := Arena.exists_get? (noted.tidy.bound id global)
  refine continues.keeps (reaching_of_sizeVariables sizes ?_ was
    (noted.counted_of_global global was)
    (may declared (Shader.mem_declaredVariables.mpr ⟨id, global, was⟩)) in_sized)
  exact List.mem_append_left _ (List.mem_filterMap.mpr
    ⟨_, Shader.node_of_mem _ (Shader.mem_globals.mp global), rfl⟩)

end ArraySize

/-! ## Merging -/

namespace Merge

/-- What is used on shared names in the units of a stage and their libraries. -/
def usesOf (units : List TranslationUnit) : List (String × Nat) :=
  units.flatMap fun unit => (unit.shader :: unit.libraries).flatMap (·.uses)

/-- What the units of a stage declare. -/
def declarationsOf (units : List TranslationUnit) : List Variable :=
  units.flatMap (·.shader.lastingVariables)

/-- The main unit of a stage is sound, and the declarations that stand for their names lead: its
own, and for a name that it does not declare, all that the others share. -/
structure Led (units : List TranslationUnit) (main : Shader) : Prop where
  sound : main.problems = []
  distinct : (main.declaredVariables.map (·.name)).Nodup
  apart : main.ParametersApart
  leads : ∀ declared ∈ main.lastingVariables,
    declared.Leads (usesOf units) (declarationsOf units)
  shares : ∀ unit ∈ units, ∀ shader ∈ unit.shader :: unit.libraries,
    ∀ declared ∈ shader.sharedVariables, declared.name ∉ main.lastingVariables.map (·.name) →
      declared.Leads (usesOf units) (declarationsOf units)

variable {stage : Stage} {units : List TranslationUnit} {main : Shader}

theorem Led.shared (led : Led units main) {unit : TranslationUnit} (listed : unit ∈ units)
    {shader : Shader} (inside : shader ∈ unit.shader :: unit.libraries) :
    Shares (usesOf units) (Leads (usesOf units) (declarationsOf units))
      (main.lastingVariables.map (·.name)) shader where
  uses _ used := List.mem_flatMap.mpr ⟨unit, listed, List.mem_flatMap.mpr ⟨shader, inside, used⟩⟩
  leads := led.shares unit listed shader inside

/-- What has been gathered is noted, and leads. -/
theorem Gathered.noted {declarations : List Variable} {used : List (String × Nat)}
    {names : List String} {shader : Shader}
    (gathered : Gathered used (Leads used declarations) names stage shader) : shader.Noted where
  tidy := gathered.sound.tidy
  counted name declared named := by
    obtain ⟨id, stands, found⟩ := Option.bind_eq_some_iff.mp named
    obtain ⟨global, -⟩ := gathered.sound.coherent.variable_of stands
    exact (gathered.led declared (Shader.mem_declaredVariables.mpr ⟨id, global, found⟩)).counted
  bound id global declared found := by
    have known := gathered.sound.coherent.known id global declared found
    obtain ⟨other, bound⟩ := Option.isSome_iff_exists.mp known
    obtain ⟨other_global, entry, there, named⟩ := gathered.sound.coherent.variable_of bound
    obtain rfl := gathered.sound.tidy.eq_of_name other_global global there found named
    exact bound
  noted callee signature is_declared there id index touched global declared found := by
    have counted := (gathered.counted callee.function is_declared signature
      (List.mem_of_getElem? there)).counted id index touched global declared found
    exact (gathered.led declared (Shader.mem_declaredVariables.mpr ⟨id, global, found⟩)).notes _
      counted rfl

theorem fitStageInputs_noted {shader fitted : Shader} {misfits : List LinkError}
    (noted : shader.Noted) (may : ∀ declared ∈ shader.declaredVariables, declared.MayReach)
    (runs : fitStageInputs stage shader = .ok (fitted, misfits)) :
    fitted.Noted ∧ ∀ declared ∈ fitted.declaredVariables, declared.MayReach := by
  obtain rfl | ⟨_, sized, fits, retypes⟩ := fitStageInputs_cases runs
  · exact ⟨noted, may⟩
  · have revised : Shader.Revised (Continues Variable.MayReach) shader sized :=
      fitInputs_revised .refl .trans (fun _ _ => fitInput_continues) fits
    have sized_noted := noted.revised (fun _ _ => Continues.toNotesMore) revised
    refine ⟨sized_noted.retypeElements retypes, fun declared listed => ?_⟩
    obtain ⟨origin, was, continues⟩ := revised.mem_declared
      ((Shader.thinned_retypeElements sized_noted.tidy.flat retypes).declaredVariables.subset
        listed)
    exact continues.keeps (may origin was)

theorem resolve_types {resolutions : Resolutions}
    (resolves : (Declaration.resolve false (units.map (·.shader))).Grants resolutions)
    {name : String} {resolved : Variable} (found : resolutions.get? name = some resolved) :
    ∃ other ∈ declarationsOf units, other.name = name ∧ resolved.ty = other.ty := by
  let of_unit (name : String) (resolved : Variable) : Prop :=
    ∃ other ∈ declarationsOf units, other.name = name ∧ resolved.ty = other.ty
  refine (@Declaration.resolve_grants of_unit ?_ _ _ _
    (fun shader listed declared here compared => ?_)
    resolves _ _ found).2
  · intro existing declared merged named of_existing of_declared merged_from
    have types : merged.ty = existing.ty ∨ merged.ty = declared.ty := by
      rcases merged_from.ty with ⟨same, -⟩ | ⟨-, same⟩
      · exact .inl same
      · exact (ite_eq_or_eq _ _ _).imp same.trans same.trans
    rw [named] at of_existing ⊢
    simp only [of_unit]
    rcases types with same | same
    · rw [same]
      exact of_existing
    · rw [same]
      exact of_declared
  · obtain ⟨unit, unit_listed, rfl⟩ := List.mem_map.mp listed
    refine ⟨declared, List.mem_flatMap.mpr ⟨unit, unit_listed, ?_⟩, rfl, rfl⟩
    exact List.mem_filter.mpr ⟨here, by simpa [Declaration.isCompared] using compared⟩

/-- Merging units whose declarations lead makes arrays long enough. -/
theorem link_reaching {version : Nat} {limits : Limits} {result : Shader}
    (of_stage : ∀ unit ∈ units, unit.shader.stage = stage)
    (led : ∀ main others, splitMain? (units.map (·.shader)) = some (main, others) → Led units main)
    (grants : (link stage version limits units).Grants result) : result.Reaching := by
  obtain ⟨resolutions, blocks, main, others, resolves, -, splits, assembles⟩ := link_grants grants
  obtain ⟨main_listed, others_listed, has_main⟩ := splitMain?_eq_some splits
  obtain ⟨merged, resolved, agreed, fitted, misfits, moves, resolves_calls, adopts,
    fits, sizes, -⟩ :=
    assemble_grants assembles
  have led := led main others splits
  obtain ⟨unit, unit_listed, rfl⟩ := List.mem_map.mp main_listed
  have of_libraries : ∀ library ∈ units.map (·.shader) ++ units.flatMap (·.libraries),
      Shares (usesOf units) (Leads (usesOf units) (declarationsOf units))
        (unit.shader.lastingVariables.map (·.name)) library :=
    forall_library fun other other_listed library inside => led.shared other_listed inside
  have of_unit : ∀ shader ∈ units.map (·.shader), Shares (usesOf units)
      (Leads (usesOf units) (declarationsOf units))
      (unit.shader.lastingVariables.map (·.name)) shader :=
    fun shader listed => of_libraries shader (List.mem_append_left _ listed)
  let basis : Shader := { unit.shader with
    uniformBlocks := blocks
    geometry := (geometryLayout stage version (units.map (·.shader))).1 }
  have gathered_merged : Gathered (usesOf units) (Leads (usesOf units) (declarationsOf units))
      (basis.lastingVariables.map (·.name)) stage merged :=
    Gathered.of_main (show basis.mainSignature?.isSome = true from has_main)
      (of_stage unit unit_listed) ((Shader.problems_eq_nil.mp led.sound).congr rfl rfl rfl)
      led.distinct led.apart
      (of_unit unit.shader main_listed).uses led.leads
      (fun other listed => of_unit other (others_listed listed)) moves
  have gathered := gathered_merged.resolveCalls of_libraries resolves_calls
  have revised : Shader.Revised (Continues (Leads (usesOf units) (declarationsOf units)))
      resolved agreed :=
    Shader.adoptResolutions_revised .refl .trans (fun declared other found =>
      leads_adopt (resolve_types resolves found)) adopts
  obtain ⟨noted, may⟩ := fitStageInputs_noted
    (gathered.noted.revised (fun _ _ => Continues.toNotesMore) revised)
    (fun declared listed => by
      obtain ⟨origin, was, continues⟩ := revised.mem_declared listed
      exact (continues.keeps (gathered.led origin was)).reaches declared
        (List.mem_cons_self ..) rfl) fits
  exact ArraySize.reaching_of_sizeArrays noted may sizes

end Merge

/-! ## Linking -/

namespace Linking

theorem continues_of_keepsExtent (one other : Variable) (keeps : one.KeepsExtent other) :
    one.Continues Variable.Reaching other := by
  refine ⟨.of_same keeps.name keeps.highest, fun reaching => ?_⟩
  rw [Variable.Reaching, keeps.ty (Ty.Reaches.sized reaching), keeps.highest]
  exact reaching

theorem le_foldl_max {numbers : List Nat} :
    ∀ {start number}, number ≤ start ∨ number ∈ numbers → number ≤ numbers.foldl max start := by
  induction numbers with
  | nil => exact fun found => found.resolve_right (List.not_mem_nil)
  | cons first numbers ih =>
      intro start number found
      refine ih ?_
      rcases found with below | listed
      · exact .inl (Nat.le_trans below (Nat.le_max_left ..))
      · exact (List.mem_cons.mp listed).imp (fun same => Nat.le_trans (Nat.le_of_eq same)
          (Nat.le_max_right ..)) fun later => later

/-- What is noted on a uniform counts among what all executables note on its name. -/
theorem le_highestAccess {executables : List Shader} {shader : Shader}
    (listed : shader ∈ executables) (noted : shader.Noted) {declared : Variable}
    (is_declared : declared ∈ shader.declaredVariables) (is_uniform : declared.mode = .uniform) :
    declared.maxArrayAccess ≤ Uniform.highestAccess executables declared.name := by
  obtain ⟨id, global, found⟩ := Shader.mem_declaredVariables.mp is_declared
  refine le_foldl_max
    (.inr (List.mem_map_of_mem (List.mem_filter.mpr ⟨?_, by simpa using is_uniform⟩)))
  refine List.mem_filterMap.mpr ⟨shader, listed, ?_⟩
  rw [Shader.findVariable?, noted.bound id global declared found]
  exact found

theorem foldl_max_add_lt {numbers : List Nat} {more limit : Nat} :
    ∀ {start}, start + more < limit → (∀ number ∈ numbers, number + more < limit) →
      numbers.foldl max start + more < limit := by
  induction numbers with
  | nil => exact fun below _ => below
  | cons first numbers ih =>
      intro start below all
      refine ih ?_ fun number later => all number (List.mem_cons_of_mem _ later)
      have here := all first (List.mem_cons_self ..)
      omega

/-- A word can say the length that is asked for by what all executables note on a name. -/
theorem highestAccess_counted {executables : List Shader}
    (noted : ∀ shader ∈ executables, shader.Noted) (name : String) :
    Uniform.highestAccess executables name + 1 < UInt32.size := by
  refine foldl_max_add_lt (by decide) fun number listed => ?_
  obtain ⟨declared, chosen, rfl⟩ := List.mem_map.mp listed
  obtain ⟨shader, in_executables, found⟩ := List.mem_filterMap.mp (List.mem_filter.mp chosen).1
  exact (noted shader in_executables).counted name declared found

theorem lasting_reaching :
    Lasting (Everywhere fun _ => Shader.Reaching) fun _ => Shader.Reaching where
  stops _ everywhere _ := everywhere
  revised reaching revised := reaching.revised (revised.imp continues_of_keepsExtent)
  cleaned reaching := reaching.removeDeadCode false
  resized everywhere found runs :=
    (everywhere _ _ found).resizeArrays (fun _ is_declared is_uniform =>
      le_highestAccess (Outcome.mem_present.mpr ⟨_, found⟩) (everywhere _ _ found).toNoted
        is_declared is_uniform)
      (highestAccess_counted fun shader listed => by
        obtain ⟨stage, there⟩ := Outcome.mem_present.mp listed
        exact (everywhere stage shader there).toNoted) runs

theorem keeps_optimize :
    Keeps (Everywhere fun _ => Shader.Reaching) (fun _ => Shader.Reaching) optimize :=
  .optimize lasting_reaching.stops fun _ _ => Shader.Reaching.optimizeFully

end Linking

namespace Shader

/-- Every constant index that a body uses on a global array is inside the array. -/
def IndicesInside (shader : Shader) : Prop :=
  ∀ id ∈ shader.globals, ∀ declared ∈ shader.vars.get? id, ∀ body ∈ shader.bodies,
    ∀ index, Touch.element id index ∈ touches (Block.ownNodes body) → declared.ty.Reaches index

theorem touches_flat {block : Block} (flat : block.Flat) : touches block.ownNodes = [] := by
  induction flat using Block.Flat.induction with
  | nil => rfl
  | declare id rest _ _ tail | function id rest _ _ tail =>
      rw [Block.ownNodes_cons, touches_append, tail, List.append_nil]
      rfl

/-- Compacting keeps constant indices inside. -/
theorem Reaching.compacted {before after : Shader} (reaching : before.Reaching)
    (compacted : Compacted before after) : after.IndicesInside := by
  intro id global declared found body listed index touched
  rcases mem_bodies.mp listed with rfl | ⟨function_id, carried, in_signatures, rfl⟩
  · rw [touches_flat (compacted.tidy reaching.tidy).flat] at touched
    cases touched
  · obtain ⟨position, held⟩ := List.mem_iff_getElem?.mp in_signatures
    have there : after.At ⟨function_id, position⟩ carried := held
    obtain ⟨function, function_found, -⟩ := there.function
    obtain ⟨one, moves⟩ := @Compacted.moves_origin _ _ ⟨function_id, position⟩ compacted
      (compacted.declared (Arena.lt_of_get? function_found))
    obtain ⟨signature, was, related⟩ := compacted.at_origin moves there
    obtain ⟨origin, touched_before, touch_alike⟩ := related.body.touched touched
    cases touch_alike with
    | @element moved_id _ _ moved =>
        obtain ⟨same, same_global, same_moved⟩ :=
          exists_of_forall₂ (globals_alike compacted.topLevel) global
        have live : before.isLive moved_id = true := by
          refine isLive_of_mentioned (List.mem_filterMap.mpr ⟨.place (.whole moved_id), ?_, rfl⟩)
          exact nodes_of_body moves.1 (List.mem_of_getElem? was) _
            (mem_touches_whole.mp (Block.touches_whole touched_before))
        obtain rfl := compaction_injective (isLive_of_global same_global) live same_moved moved
        have was_declared := (compacted.get? live moved).symm.trans found
        have noted := reaching.noted one signature moves.1 was same index touched_before same_global
          declared was_declared
        exact fun length long => Nat.lt_of_le_of_lt noted (reaching.reaching declared
          (mem_declaredVariables.mpr ⟨same, same_global, was_declared⟩) length long)

end Shader

namespace Program

/-- The declarations that stand for their names in a stage lead. -/
def Led (program : Program) : Prop :=
  ∀ stage, ∀ found ∈ Merge.splitMain?
      ((program.units.filter (·.shader.stage = stage)).map (·.shader)),
    Merge.Led (program.units.filter (·.shader.stage = stage)) found.1

/-- However a link ends, every constant index that a stored executable uses on a global array is
inside the array, if the declarations lead. -/
theorem link_keeps_inside {options : Options} {program result : Program} (led : program.Led)
    (runs : program.link options = .ok result) {stage : Stage} {shader : Shader}
    (found : result.outcome.executables.get stage = some shader) : shader.IndicesInside := by
  have merges : ∀ stage version shader, (Merge.link stage version options.limits
      (program.units.filter (·.shader.stage = stage))).Grants shader → shader.Reaching :=
    fun stage _ _ grants => Merge.link_reaching
      (fun unit listed => of_decide_eq_true (List.mem_filter.mp listed).2)
      (fun main others splits => led stage (main, others) splits) grants
  obtain ⟨before, reaching, compacted⟩ := link_keeps
    (Linking.lasting_reaching.phases Linking.lasting_reaching merges Linking.keeps_optimize) runs
    found
  exact reaching.compacted compacted

end Program

/-- An element of an array of vectors. -/
def Place.weight (id : VariableId) (index : Int32) : Place :=
  .element (.whole id) (.constant (.int index)) (.floatVector .four)

/-- An array of vectors without a length. -/
def Variable.weights (highest : Nat) : Variable :=
  { Variable.ofType "weights"
    (.unsizedArray (.floatVector .four)) .plain with maxArrayAccess := highest }

namespace Program

/-- The main function reads an array, after another unit has written it further up. -/
def weighing (highest : Nat) : Program where
  units := [
    ⟨.ofParts .fragment [.vector "result" .shaderOut, .weights highest]
      [.ofBody "main" [.call ⟨1, 0⟩ [] none, .store (.whole 0) (.load (.weight 1 0))],
        { name := "helper", signatures := [.announce .void []] }], []⟩,
    ⟨.ofParts .fragment [.weights 5]
      [.ofBody "helper" [.store (.weight 0 5) (.load (.weight 0 4))]], []⟩]

theorem weighing_keeps_inside : (weighing 5).Led ∧ ∃ result shader,
    (weighing 5).link {} = .ok result ∧ result.linked = true ∧
      result.outcome.executables.get .fragment = some shader ∧
      shader.declaredVariables.map (·.ty.length?) = [none, some 6] ∧ shader.IndicesInside := by
  have led : (weighing 5).Led := by
    intro stage found splits
    cases stage with
    | fragment =>
        obtain rfl := Option.some.inj splits
        exact ⟨by decide +kernel, by decide +kernel, by decide +kernel, by decide +kernel,
          by decide +kernel⟩
    | _ => cases splits
  have links : (weighing 5).linksTo {} (fun result => decide (
      (result.outcome.executables.get .fragment).map (fun shader =>
        shader.declaredVariables.map (·.ty.length?)) = some [none, some 6])) = true := by
    decide +kernel
  obtain ⟨result, runs, succeeds, found⟩ := exists_of_linksTo links
  obtain ⟨shader, here, lengths⟩ := Option.map_eq_some_iff.mp (of_decide_eq_true found)
  exact ⟨led, result, shader, runs, succeeds, here, lengths, link_keeps_inside led runs here⟩

/-- It is not enough that each unit notes what it uses itself and declares long enough arrays: what
the other unit has noted on the array is lost. -/
theorem weighing_goes_beyond :
    (∀ unit ∈ (weighing 0).units, unit.shader.problems = [] ∧
      ∀ declared ∈ unit.shader.declaredVariables, declared.Leads unit.shader.uses []) ∧
    ∃ result, (weighing 0).link {} = .ok result ∧ result.linked = true ∧
      ∃ shader ∈ result.outcome.present, ¬ shader.IndicesInside := by
  refine ⟨by decide +kernel, ?_⟩
  have links : (weighing 0).linksTo {} (fun result => decide (∃ shader ∈ result.outcome.present,
      ∃ id ∈ shader.globals, ∃ declared ∈ shader.vars.get? id, ∃ body ∈ shader.bodies,
        Touch.element id 5 ∈ touches (Block.ownNodes body) ∧ ¬ declared.ty.Reaches 5)) = true := by
    decide +kernel
  obtain ⟨result, runs, succeeds, found⟩ := exists_of_linksTo links
  obtain ⟨shader, listed, id, global, declared, is_declared, body, in_bodies, touched, beyond⟩ :=
    of_decide_eq_true found
  exact ⟨result, runs, succeeds, shader, listed, fun inside =>
    beyond (inside id global declared is_declared body in_bodies 5 touched)⟩

end Program
end StageLink
