import StageLink.Optimize.Fold
import StageLink.Proofs.Occurrences

/-!
# What is touched

An instruction list touches a variable wherever it occurs as a place, and touches one of its
elements where it is indexed by an expression that folds to a constant.  Folding touches nothing
new, and lists that are alike touch corresponding variables at the same indices.
-/

namespace StageLink

/-- The index that an expression comes to. -/
def Expr.constantIndex? (expression : Expr) : Option Nat :=
  expression.fold.constant?.bind Constant.asIndex?

/-- A variable, or an element of one that is chosen by a constant. -/
inductive Touch where
  | whole (id : VariableId)
  | element (id : VariableId) (index : Nat)
  deriving DecidableEq

def Node.touch? : Node → Option Touch
  | .place (.whole id) => some (.whole id)
  | .place (.element (.whole id) index _) => index.constantIndex?.map (.element id)
  | _ => none

/-- What some nodes touch, in order. -/
def touches (nodes : List Node) : List Touch := nodes.filterMap Node.touch?

@[simp]
theorem touches_nil : touches [] = [] := rfl

@[simp]
theorem touches_append (nodes more : List Node) :
    touches (nodes ++ more) = touches nodes ++ touches more :=
  List.filterMap_append

theorem touches_cons (node : Node) (nodes : List Node) :
    touches (node :: nodes) = node.touch?.toList ++ touches nodes := by
  cases held : node.touch? <;> simp [touches, held]

@[simp]
theorem touches_instruction (instruction : Instruction) (nodes : List Node) :
    touches (.instruction instruction :: nodes) = touches nodes := rfl

@[simp]
theorem touches_expr (expression : Expr) (nodes : List Node) :
    touches (.expr expression :: nodes) = touches nodes := rfl

theorem mem_touches_whole {nodes : List Node} {id : VariableId} :
    Touch.whole id ∈ touches nodes ↔ Node.place (.whole id) ∈ nodes := by
  simp only [touches, List.mem_filterMap]
  constructor
  · rintro ⟨node, listed, touched⟩
    cases node with
    | place place =>
        cases place with
        | whole other =>
            cases touched
            exact listed
        | element array index ty =>
            cases array with
            | whole other =>
                obtain ⟨_, -, equal⟩ := Option.map_eq_some_iff.mp touched
                cases equal
            | _ => cases touched
        | field record name ty => cases touched
    | _ => cases touched
  · intro listed
    exact ⟨_, listed, rfl⟩

/-! ## Folding -/

theorem Expr.reduce_of_value {expression : Expr} {value : Constant}
    (found : expression.value? = some value) : expression.reduce = .constant value := by
  rw [reduce, found]

theorem Expr.reduce_of_none {expression : Expr} (absent : expression.value? = none) :
    expression.reduce = expression := by
  rw [reduce, absent]

mutual

theorem Place.fold_fold : (place : Place) → place.fold.fold = place.fold
  | .whole _ => rfl
  | .element array index _ => by simp [Place.fold, array.fold_fold, index.fold_fold]
  | .field record _ _ => by simp [Place.fold, record.fold_fold]

theorem Expr.fold_fold : (expression : Expr) → expression.fold.fold = expression.fold
  | .constant _ => rfl
  | .load place => by simp [Expr.fold, place.fold_fold]
  | .unary operator operand ty => by
      rw [Expr.fold]
      cases value : (Expr.unary operator operand.fold ty).value? with
      | some found =>
          rw [Expr.reduce_of_value value]
          rfl
      | none =>
          rw [Expr.reduce_of_none value, Expr.fold, operand.fold_fold, Expr.reduce_of_none value]
  | .binary operator left right ty => by
      rw [Expr.fold]
      cases value : (Expr.binary operator left.fold right.fold ty).value? with
      | some found =>
          rw [Expr.reduce_of_value value]
          rfl
      | none =>
          rw [Expr.reduce_of_none value, Expr.fold, left.fold_fold, right.fold_fold,
            Expr.reduce_of_none value]
  | .swizzle inner positions ty => by
      rw [Expr.fold]
      cases value : (Expr.swizzle inner.fold positions ty).value? with
      | some found =>
          rw [Expr.reduce_of_value value]
          rfl
      | none =>
          rw [Expr.reduce_of_none value, Expr.fold, inner.fold_fold, Expr.reduce_of_none value]
  | .compose _ components => by simp [Expr.fold, Expr.foldAll_foldAll components]
  | .texture _ coordinate _ => by simp [Expr.fold, coordinate.fold_fold]

theorem Expr.foldAll_foldAll : (expressions : List Expr) →
    Expr.foldAll (Expr.foldAll expressions) = Expr.foldAll expressions
  | [] => rfl
  | expression :: expressions => by
      simp [Expr.foldAll, expression.fold_fold, Expr.foldAll_foldAll expressions]

end

theorem Expr.constantIndex?_fold (expression : Expr) :
    expression.fold.constantIndex? = expression.constantIndex? := by
  rw [constantIndex?, expression.fold_fold, constantIndex?]

theorem Place.touch?_fold (place : Place) :
    (Node.place place.fold).touch? = (Node.place place).touch? := by
  cases place with
  | whole id => rfl
  | element array index ty =>
      cases array with
      | whole id => simp [Place.fold, Node.touch?, index.constantIndex?_fold]
      | _ => rfl
  | field record name ty => rfl

/-- Reducing an expression at its root drops what it touches or keeps it. -/
theorem Expr.touches_reduce (expression : Expr) :
    (touches expression.reduce.nodes).Sublist (touches expression.nodes) := by
  cases value : expression.value? with
  | some found =>
      rw [Expr.reduce_of_value value]
      exact List.nil_sublist _
  | none =>
      rw [Expr.reduce_of_none value]

mutual

theorem Place.touches_fold : (place : Place) →
    (touches place.fold.nodes).Sublist (touches place.nodes)
  | .whole _ => List.Sublist.refl _
  | .element array index ty => by
      have same := Place.touch?_fold (.element array index ty)
      simp only [Place.fold, Place.nodes, touches_cons, touches_append] at same ⊢
      rw [same]
      exact (List.Sublist.refl _).append (array.touches_fold.append index.touches_fold)
  | .field record _ _ => record.touches_fold

/-- A folded expression touches nothing new. -/
theorem Expr.touches_fold : (expression : Expr) →
    (touches expression.fold.nodes).Sublist (touches expression.nodes)
  | .constant _ => List.Sublist.refl _
  | .load place => place.touches_fold
  | .unary _ operand _ => (Expr.touches_reduce _).trans operand.touches_fold
  | .binary _ left right _ => by
      refine (Expr.touches_reduce _).trans ?_
      simpa [Expr.nodes] using left.touches_fold.append right.touches_fold
  | .swizzle value _ _ => (Expr.touches_reduce _).trans value.touches_fold
  | .compose _ components => Expr.touches_foldAll components
  | .texture sampler coordinate _ => by
      simpa [Expr.fold, Expr.nodes] using coordinate.touches_fold

theorem Expr.touches_foldAll : (expressions : List Expr) →
    (touches (Expr.nodesOfAll (Expr.foldAll expressions))).Sublist
      (touches (Expr.nodesOfAll expressions))
  | [] => List.Sublist.refl _
  | expression :: expressions => by
      rw [Expr.foldAll, Expr.nodesOfAll, Expr.nodesOfAll, touches_append, touches_append]
      exact expression.touches_fold.append (Expr.touches_foldAll expressions)

end

/-! ## Lists that are alike -/

section Correspondence

variable {same : VariableId → VariableId → Prop}

theorem Expr.Alike.constant? {expression other : Expr} (alike : Expr.Alike same expression other) :
    other.constant? = expression.constant? := by
  cases alike <;> rfl

theorem Expr.Alike.value? {expression other : Expr} (alike : Expr.Alike same expression other) :
    other.value? = expression.value? := by
  cases alike with
  | unary operand => cases operand <;> rfl
  | binary left right => cases left <;> cases right <;> rfl
  | swizzle value => cases value <;> rfl
  | _ => rfl

theorem Expr.Alike.reduce {expression other : Expr} (alike : Expr.Alike same expression other) :
    Expr.Alike same expression.reduce other.reduce := by
  cases value : expression.value? with
  | some found =>
      rw [Expr.reduce_of_value value, Expr.reduce_of_value (alike.value?.trans value)]
      exact .constant
  | none =>
      rw [Expr.reduce_of_none value, Expr.reduce_of_none (alike.value?.trans value)]
      exact alike

mutual

theorem Place.Alike.fold : {place other : Place} → Place.Alike same place other →
    Place.Alike same place.fold other.fold
  | _, _, .whole related => .whole related
  | _, _, .element array index => .element array.fold index.fold
  | _, _, .field record => .field record.fold

/-- What is alike stays so when it is folded. -/
theorem Expr.Alike.fold : {expression other : Expr} → Expr.Alike same expression other →
    Expr.Alike same expression.fold other.fold
  | _, _, .constant => .constant
  | _, _, .load place => .load place.fold
  | _, _, .unary operand => (Expr.Alike.unary operand.fold).reduce
  | _, _, .binary left right => (Expr.Alike.binary left.fold right.fold).reduce
  | _, _, .swizzle value => (Expr.Alike.swizzle value.fold).reduce
  | _, _, .compose components => .compose components.fold
  | _, _, .texture sampler coordinate => .texture sampler coordinate.fold

theorem Expr.AllAlike.fold : {expressions others : List Expr} →
    Expr.AllAlike same expressions others →
    Expr.AllAlike same (Expr.foldAll expressions) (Expr.foldAll others)
  | _, _, .nil => .nil
  | _, _, .cons first rest => .cons first.fold rest.fold

end

theorem Expr.Alike.constantIndex? {expression other : Expr}
    (alike : Expr.Alike same expression other) :
    other.constantIndex? = expression.constantIndex? := by
  rw [Expr.constantIndex?, alike.fold.constant?, Expr.constantIndex?]

/-- The touches are of one kind, of related variables and at the same index. -/
inductive Touch.Alike (same : VariableId → VariableId → Prop) : Touch → Touch → Prop
  | whole {id other} : same id other → Touch.Alike same (.whole id) (.whole other)
  | element {id other index} : same id other →
      Touch.Alike same (.element id index) (.element other index)

theorem Node.Alike.touch? {renames : Renaming} {node other : Node}
    (alike : Node.Alike renames node other) :
    Option.Rel (Touch.Alike renames.mentions) node.touch? other.touch? := by
  cases alike with
  | instruction related => exact .none
  | expr related => exact .none
  | place related =>
      cases related with
      | whole related => exact .some (.whole related)
      | @element array array' index index' ty ty' array_alike index_alike =>
          cases array_alike with
          | whole related =>
              simp only [Node.touch?, index_alike.constantIndex?]
              cases index.constantIndex? with
              | some position => exact .some (.element related)
              | none => exact .none
          | _ => exact .none
      | field related => exact .none

theorem AlikeInOrder.touches {renames : Renaming} {nodes others : List Node}
    (alike : AlikeInOrder renames nodes others) :
    List.Forall₂ (Touch.Alike renames.mentions) (touches nodes) (touches others) := by
  induction alike with
  | nil => exact .nil
  | @cons node other nodes others first rest ih =>
      rw [touches_cons, touches_cons]
      have here := first.touch?
      revert here
      generalize node.touch? = one
      generalize other.touch? = another
      rintro (related | _)
      · exact .cons related ih
      · exact ih

end Correspondence

/-- What is touched in a list that is alike has come from something touched in the original. -/
theorem Block.Alike.touched {renames : Renaming} {block other : Block}
    (alike : Block.Alike renames block other) {touch : Touch}
    (touched : touch ∈ touches other.ownNodes) :
    ∃ origin ∈ touches block.ownNodes, Touch.Alike renames.mentions origin touch :=
  exists_of_forall₂ alike.ownNodes.touches touched

end StageLink
