import StageLink.Proofs.Compactness

/-!
# Folded executables

Folding looks at one instruction at a time and at the shape of its operands.  Where instructions
have only been removed, retyped or renumbered since it found nothing more to do, it finds nothing
again.
-/

namespace StageLink

/-! ## Counting in corresponding lists -/

section Lists

variable {Item Other : Type} {items : List Item} {others : List Other} {chosen : Item → Bool}
  {chosen_too : Other → Bool}

theorem countP_of_forall₂ {related : Item → Other → Prop}
    (same : ∀ item other, related item other → chosen_too other = chosen item)
    (each : List.Forall₂ related items others) :
    others.countP chosen_too = items.countP chosen := by
  rw [List.countP_eq_length_filter, List.countP_eq_length_filter]
  exact (List.rel_filter (fun _ _ one => by simp only [same _ _ one]) each).length_eq.symm

theorem any_of_countP (same : others.countP chosen_too = items.countP chosen) :
    others.any chosen_too = items.any chosen := by
  rw [Bool.eq_iff_iff, List.any_eq_true, List.any_eq_true, ← List.countP_pos_iff,
    ← List.countP_pos_iff, same]

end Lists

/-! ## Kinds of instructions -/

section Kinds

variable {kind : Instruction → Bool} {renames : Renaming}

theorem Block.Alike.hasKind {block other : Block}
    (same : ∀ one two, Instruction.Alike renames one two → kind two = kind one)
    (alike : Block.Alike renames block other) : other.hasKind kind = block.hasKind kind := by
  refine any_of_countP (countP_of_forall₂ (fun node renamed related => ?_) alike.ownNodes)
  cases related with
  | instruction related => exact same _ _ related
  | _ => rfl

end Kinds

/-! ## Folding what is alike -/

section Alike

variable {same : VariableId → VariableId → Prop} {renames : Renaming}

mutual

theorem Place.Alike.folds : {place other : Place} → Place.Alike same place other →
    other.folds = place.folds
  | _, _, .whole _ => rfl
  | _, _, .element array index => by rw [Place.folds, Place.folds, array.folds, index.folds]
  | _, _, .field record => record.folds

theorem Expr.Alike.folds : {expression other : Expr} → Expr.Alike same expression other →
    other.folds = expression.folds
  | _, _, .constant => rfl
  | _, _, .load place => place.folds
  | _, _, .unary operand => by
      rw [Expr.folds, Expr.folds, operand.folds, (Expr.Alike.unary operand.fold).value?]
  | _, _, .binary left right => by
      rw [Expr.folds, Expr.folds, left.folds, right.folds,
        (Expr.Alike.binary left.fold right.fold).value?]
  | _, _, .swizzle value => by
      rw [Expr.folds, Expr.folds, value.folds, (Expr.Alike.swizzle value.fold).value?]
  | _, _, .compose components => components.folds
  | _, _, .texture _ coordinate => coordinate.folds

theorem Expr.AllAlike.folds : {expressions others : List Expr} →
    Expr.AllAlike same expressions others → Expr.someFolds others = Expr.someFolds expressions
  | _, _, .nil => rfl
  | _, _, .cons first rest => by rw [Expr.someFolds, Expr.someFolds, first.folds, rest.folds]

end

theorem Place.Alike.root : {place other : Place} → Place.Alike same place other →
    same place.root other.root
  | _, _, .whole related => related
  | _, _, .element array _ => array.root
  | _, _, .field record => record.root

theorem Expr.Alike.constantBool? {expression other : Expr}
    (alike : Expr.Alike same expression other) :
    other.constantBool? = expression.constantBool? := by
  cases alike <;> rfl

theorem Instruction.Alike.folds {instruction other : Instruction}
    (alike : Instruction.Alike renames instruction other) : other.folds = instruction.folds := by
  cases alike with
  | assign target value guard =>
      rw [Instruction.folds, Instruction.folds, target.folds, value.folds]
      cases guard with
      | none => rfl
      | some guard => rw [Expr.foldsGuard, Expr.foldsGuard, guard.folds, guard.fold.constantBool?]
  | call _ arguments result =>
      rw [Instruction.folds, Instruction.folds, arguments.folds]
      cases result with
      | none => rfl
      | some place => exact congrArg _ place.folds
  | branch condition _ _ => exact condition.folds
  | yield value =>
      cases value with
      | none => rfl
      | some result => exact result.folds
  | _ => rfl

theorem Instruction.Alike.isDecided {instruction other : Instruction}
    (alike : Instruction.Alike renames instruction other) :
    other.isDecided = instruction.isDecided := by
  cases alike with
  | assign _ _ guard =>
      cases guard with
      | none => rfl
      | some guard => rw [Instruction.isDecided, Instruction.isDecided, guard.constantBool?]
  | branch condition _ _ =>
      rw [Instruction.isDecided, Instruction.isDecided, condition.constantBool?]
  | _ => rfl

end Alike

/-! ## Folded lists -/

namespace Block

theorem folds_eq_false {block : Block} : block.folds = false ↔
    block.hasKind Instruction.folds = false ∧ block.hasKind Instruction.isDecided = false := by
  rw [folds, Bool.or_eq_false_iff]
  refine and_congr_right fun nothing => ?_
  rw [(Block.exact_mapFold block).same nothing]

theorem Alike.folds {renames : Renaming} {block other : Block}
    (alike : Block.Alike renames block other) (folded : block.folds = false) :
    other.folds = false := by
  rw [folds_eq_false, alike.hasKind fun _ _ => Instruction.Alike.folds,
    alike.hasKind fun _ _ => Instruction.Alike.isDecided]
  exact folds_eq_false.mp folded

end Block

namespace Shader

variable {shader before after : Shader}

/-! ## Folded shaders -/

theorem foldsSomething_eq_false :
    shader.foldsSomething = false ↔ ∀ body ∈ shader.bodies, Block.folds body = false := by
  simp [foldsSomething, List.any_eq_false]

theorem foldsSomething_alike {renames : Renaming} (folded : before.foldsSomething = false)
    (topLevel : Block.Alike renames before.topLevel after.topLevel) {functions : List Function}
    (included : functions ⊆ before.functions.entries)
    (signatures : List.Forall₂ (fun function changed => List.Forall₂ (fun signature carried =>
      Block.Alike renames signature.body carried.body) function.signatures changed.signatures)
      functions after.functions.entries) : after.foldsSomething = false := by
  rw [foldsSomething_eq_false] at folded ⊢
  intro body listed
  rcases List.mem_cons.mp listed with rfl | in_functions
  · exact topLevel.folds (folded _ (List.mem_cons_self ..))
  · obtain ⟨changed, in_arena, in_function⟩ := List.mem_flatMap.mp in_functions
    obtain ⟨carried, in_signatures, rfl⟩ := List.mem_map.mp in_function
    obtain ⟨function, was_listed, related⟩ := exists_of_forall₂ signatures in_arena
    obtain ⟨signature, was_there, alike⟩ := exists_of_forall₂ related in_signatures
    refine alike.folds (folded _ (List.mem_cons_of_mem _ (List.mem_flatMap.mpr
      ⟨function, included was_listed, List.mem_map_of_mem was_there⟩)))

theorem foldsSomething_revised {relation : Variable → Variable → Prop}
    (folded : before.foldsSomething = false) (revised : Revised relation before after) :
    after.foldsSomething = false := by
  rw [revised.same]
  exact folded

theorem foldsSomething_retypeElements {result : Shader} (folded : shader.foldsSomething = false)
    (runs : ArraySize.retypeElements shader = .ok result) : result.foldsSomething = false := by
  obtain ⟨-, topLevel, functions⟩ := mapBodies_eq_ok runs
  refine foldsSomething_alike folded (retypeBlock_alike topLevel) (List.Subset.refl _) ?_
  exact functions.imp fun _ _ changes => changes.2.imp fun _ _ change => retypeBlock_alike change.2

theorem Compacted.foldsSomething (compacted : Compacted before after)
    (folded : before.foldsSomething = false) : after.foldsSomething = false := by
  refine foldsSomething_alike folded compacted.topLevel (fun function listed => ?_)
    (compacted.functions.imp fun _ _ moved => moved.signatures.imp fun _ _ carried => carried.body)
  obtain ⟨position, found⟩ := Arena.exists_get?_of_mem listed
  obtain ⟨_, was, -⟩ := Arena.compact_origin found
  exact Arena.mem_of_get? was

end Shader
end StageLink
