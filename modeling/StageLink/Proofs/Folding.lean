import StageLink.Proofs.Bodies
import StageLink.Proofs.Meaning
import StageLink.Proofs.Touches

/-!
# Folding keeps the meaning

An operator on constants is folded to what it gives on their components, so that an expression keeps
its type and its value; guards and conditions keep their truth.  A branch with a constant condition
is executed like the part that is taken, whose declarations and jumps then stand in the list around
it.
-/

namespace StageLink
namespace Arithmetic

/-! ## Components -/

theorem ofInt_toNat (value : UInt32) : UInt32.ofInt value.toNat = value := by
  have below := value.toNat_lt
  have same : ((value.toNat : Int) % 2 ^ 32).toNat = value.toNat := by omega
  rw [UInt32.ofInt, same, UInt32.ofNat_toNat]

theorem onInts_eq (operator : BinaryOperator) :
    Fold.onInts operator = fun left right =>
      (unbounded? operator left.toInt right.toInt).map Int32.ofInt := by
  funext left right
  cases operator with
  | add => simp [Fold.onInts, unbounded?, Int32.ofInt_add]
  | subtract => simp [Fold.onInts, unbounded?, Int32.ofInt_sub]
  | multiply => simp [Fold.onInts, unbounded?, Int32.ofInt_mul]
  | divide =>
      have zero : right = 0 ↔ right.toInt = 0 := by
        rw [← Int32.toInt_inj]
        simp
      have quotient : Int32.ofInt (left.toInt.tdiv right.toInt) = left / right := by
        rw [Int32.ofInt_tdiv (Int32.minValue_le_toInt left) (Int32.toInt_le left)
          (Int32.minValue_le_toInt right)
          (Int32.toInt_le right)]
        simp
      rw [Fold.onInts, unbounded?]
      by_cases by_zero : right = 0
      · rw [if_pos by_zero, if_pos (zero.mp by_zero), Option.map_none]
      · rw [if_neg by_zero, if_neg (mt zero.mpr by_zero), Option.map_some, quotient]
  | _ => rfl

theorem onUints_eq (operator : BinaryOperator) :
    Fold.onUints operator = fun left right =>
      (unbounded? operator left.toNat right.toNat).map UInt32.ofInt := by
  funext left right
  cases operator with
  | add => simp [Fold.onUints, unbounded?, UInt32.ofInt_add, ofInt_toNat]
  | subtract =>
      simp [Fold.onUints, unbounded?, Int.sub_eq_add_neg, UInt32.ofInt_add,
        UInt32.ofInt_neg, ofInt_toNat,
        UInt32.sub_eq_add_neg]
  | multiply => simp [Fold.onUints, unbounded?, UInt32.ofInt_mul, ofInt_toNat]
  | divide =>
      have zero : right = 0 ↔ (right.toNat : Int) = 0 := by
        rw [← UInt32.toNat_inj]
        simp
      have quotient : UInt32.ofInt ((left.toNat : Int).tdiv right.toNat) = left / right := by
        rw [← Int.ofNat_tdiv, ← UInt32.toNat_div, ofInt_toNat]
      rw [Fold.onUints, unbounded?]
      by_cases by_zero : right = 0
      · rw [if_pos by_zero, if_pos (zero.mp by_zero), Option.map_none]
      · rw [if_neg by_zero, if_neg (mt zero.mpr by_zero), Option.map_some, quotient]
  | _ => rfl

theorem compareInts_eq (operator : BinaryOperator) :
    Fold.compareInts operator = fun left right =>
      compareIntegers? operator left.toInt right.toInt := by
  funext left right
  cases operator <;>
    simp [Fold.compareInts, Fold.comparing, compareIntegers?, Int32.lt_iff_toInt_lt,
      Int32.le_iff_toInt_le, ← Int32.toInt_inj]

theorem compareUints_eq (operator : BinaryOperator) :
    Fold.compareUints operator = fun left right =>
      compareIntegers? operator left.toNat right.toNat := by
  have less : ∀ one other : UInt32,
    decide (one < other) = decide ((one.toNat : Int) < other.toNat) :=
    fun _ _ => decide_eq_decide.mpr (UInt32.lt_iff_toNat_lt.trans Int.ofNat_lt.symm)
  have at_most : ∀ one other : UInt32,
      decide (one ≤ other) = decide ((one.toNat : Int) ≤ other.toNat) :=
    fun _ _ => decide_eq_decide.mpr (UInt32.le_iff_toNat_le.trans Int.ofNat_le.symm)
  have same : ∀ one other : UInt32,
    decide (one = other) = decide ((one.toNat : Int) = other.toNat) :=
    fun _ _ => decide_eq_decide.mpr (UInt32.toNat_inj.symm.trans Int.ofNat_inj.symm)
  funext left right
  cases operator <;>
    simp only [Fold.compareUints, Fold.comparing, compareIntegers?, less, at_most, same, gt_iff_lt,
      ge_iff_le, ne_eq, decide_not]

theorem onFloats_eq (operator : BinaryOperator) : Fold.onFloats operator = float? operator := by
  funext left right
  cases operator <;> rfl

theorem compareFloats_eq (operator : BinaryOperator) :
    Fold.compareFloats operator = compareFloats? operator := by
  funext left right
  cases operator <;> rfl

theorem onBools_eq (operator : BinaryOperator) : Fold.onBools operator = truth? operator := by
  funext left right
  cases operator <;> cases left <;> cases right <;> rfl

variable {Component Result : Type}

/-- Positions count through two lists of one length together. -/
theorem mapM_range_eq_zip (operation : Component → Component → Option Result)
    (lefts rights : List Component) (same : lefts.length = rights.length) :
    ((List.range lefts.length).mapM fun position => do
      operation (← lefts[position]?) (← rights[position]?)) =
      (lefts.zip rights).mapM fun pair => operation pair.1 pair.2 := by
  induction lefts generalizing rights with
  | nil => simp
  | cons left lefts ih =>
      cases rights with
      | nil => simp at same
      | cons right rights =>
          have rest := ih rights (by simpa using same)
          rw [List.length_cons, List.range_succ_eq_map, List.mapM_cons, List.mapM_map,
            List.zip_cons_cons,
            List.mapM_cons, ← rest]
          rfl

/-- A list that has been spread gives its components at all positions. -/
theorem spread?_eq_some {count : Nat} {components spread : List Component}
    (spreads : Fold.spread? count components = some spread) :
    spread.length = count ∧ ∀ position < count,
      spread[position]? = component? components position := by
  unfold Fold.spread? at spreads
  split at spreads
  · next component =>
      obtain rfl := Option.some.inj spreads
      refine ⟨List.length_replicate, fun position inside => ?_⟩
      simp [component?, inside]
  · next other =>
      split at spreads
      · next fits =>
          obtain rfl := Option.some.inj spreads
          refine ⟨fits, fun position inside => ?_⟩
          have no_single : components.length ≠ 1 := fun single => by
            obtain ⟨component, rfl⟩ := List.length_eq_one_iff.mp single
            exact other component rfl
          rw [component?, if_neg no_single]
      · cases spreads

/-- A list that cannot be spread lacks a component. -/
theorem spread?_eq_none {count : Nat} {components : List Component}
    (fits : components.length ≤ count) (fails : Fold.spread? count components = none) :
    ∃ position < count, component? components position = none := by
  unfold Fold.spread? at fails
  split at fails
  · cases fails
  · next other =>
      split at fails
      · cases fails
      · next shorter =>
          have no_single : components.length ≠ 1 := fun single => by
            obtain ⟨component, rfl⟩ := List.length_eq_one_iff.mp single
            exact other component rfl
          refine ⟨components.length, Nat.lt_of_le_of_ne fits shorter, ?_⟩
          rw [component?, if_neg no_single]
          simp

theorem mapM_eq_none {Item : Type} {step : Item → Option Result} {items : List Item} {item : Item}
    (listed : item ∈ items) (fails : step item = none) : items.mapM step = none := by
  induction items with
  | nil => cases listed
  | cons first rest ih =>
      rw [List.mapM_cons]
      rcases List.mem_cons.mp listed with rfl | later
      · rw [fails]
        rfl
      · rw [ih later]
        cases step first <;> rfl

theorem mapM_congr {Item : Type} {step other : Item → Option Result} {items : List Item}
    (same : ∀ item ∈ items, step item = other item) : items.mapM step = items.mapM other := by
  induction items with
  | nil => rfl
  | cons first rest ih =>
      rw [List.mapM_cons, List.mapM_cons, same first (List.mem_cons_self ..),
        ih fun item listed => same item (List.mem_cons_of_mem first listed)]

/-- Combining two lists applies the operation at all positions. -/
theorem combine?_eq (operation : Component → Component → Option Result)
    (left right : List Component) :
    Fold.combine? operation left right = everywhere? operation left right := by
  have opened : Fold.combine? operation left right =
      (Fold.spread? (max left.length right.length) left).bind fun lefts =>
        (Fold.spread? (max left.length right.length) right).bind fun rights =>
          (lefts.zip rights).mapM fun pair => operation pair.1 pair.2 := rfl
  rw [opened, everywhere?]
  cases spreads : Fold.spread? (max left.length right.length) left with
  | none =>
      obtain ⟨position, inside, absent⟩ := spread?_eq_none (Nat.le_max_left ..) spreads
      exact (mapM_eq_none (List.mem_range.mpr inside) (by rw [absent]; rfl)).symm
  | some lefts =>
      cases spreads_right : Fold.spread? (max left.length right.length) right with
      | none =>
          obtain ⟨position, inside, absent⟩ := spread?_eq_none (Nat.le_max_right ..) spreads_right
          refine (mapM_eq_none (List.mem_range.mpr inside) ?_).symm
          rw [absent]
          cases component? left position <;> rfl
      | some rights =>
          obtain ⟨length, gives⟩ := spread?_eq_some spreads
          obtain ⟨length_right, gives_right⟩ := spread?_eq_some spreads_right
          have zipped := mapM_range_eq_zip operation lefts rights (length.trans length_right.symm)
          rw [Option.bind_some, Option.bind_some, ← zipped, length]
          refine mapM_congr fun position listed => ?_
          have inside := List.mem_range.mp listed
          rw [gives position inside, gives_right position inside]

/-! ## Operators -/

/-- An operation that never gives a component gives a result only where there are no components. -/
theorem eq_nil_of_everywhere? {operation : Component → Component → Option Result}
    {left right : List Component} {results : List Result}
    (never : ∀ one other, operation one other = none)
    (found : everywhere? operation left right = some results) : results = [] := by
  unfold everywhere? at found
  cases length : max left.length right.length with
  | zero =>
      rw [length] at found
      exact (Option.some.inj found).symm
  | succ last =>
      rw [length] at found
      have fails : ((List.range (last + 1)).mapM fun position => do
          operation (← component? left position) (← component? right position)) = none :=
        mapM_eq_none (List.mem_range.mpr (Nat.zero_lt_succ last))
          (by cases component? left 0 <;> cases component? right 0 <;> simp [never])
      rw [fails] at found
      cases found

section Kinds

variable {operator : BinaryOperator}

theorem float?_eq_none (kind : isArithmetic operator = false) (one other : Single) :
    float? operator one other = none := by
  cases operator <;> first | rfl | cases kind

theorem compareFloats?_eq_none (kind : isArithmetic operator = true) (one other : Single) :
    compareFloats? operator one other = none := by
  cases operator <;> first | rfl | cases kind

theorem unbounded?_eq_none (kind : isArithmetic operator = false) (one other : Int) :
    unbounded? operator one other = none := by
  cases operator <;> first | rfl | cases kind

theorem compareIntegers?_eq_none (kind : isArithmetic operator = true) (one other : Int) :
    compareIntegers? operator one other = none := by
  cases operator <;> first | rfl | cases kind

end Kinds

/-- Where an operator either computes or compares, the one that gives components is taken. -/
theorem compute_or_compare {operator : BinaryOperator} {wrap : List Component → Value}
    {compute : Component → Component → Option Component}
    {compare : Component → Component → Option Bool} {left right : List Component} {value : Value}
    (computes : isArithmetic operator = false → ∀ one other, compute one other = none)
    (compares : isArithmetic operator = true → ∀ one other, compare one other = none)
    (empty : Fold.count (wrap []) = 0) (not_empty : Fold.count value ≠ 0)
    (found : ((Fold.combine? compute left right).map wrap
      <|> (Fold.combine? compare left right).map .bools) = some value) :
    (if isArithmetic operator then (everywhere? compute left right).map wrap
      else (everywhere? compare left right).map .bools) = some value := by
  rw [combine?_eq, combine?_eq] at found
  cases kind : isArithmetic operator with
  | true =>
      rw [if_pos rfl]
      cases computed : everywhere? compute left right with
      | some components =>
          rw [computed] at found
          exact found
      | none =>
          rw [computed] at found
          obtain ⟨truths, compared, rfl⟩ := Option.map_eq_some_iff.mp found
          obtain rfl := eq_nil_of_everywhere? (compares kind) compared
          exact absurd rfl not_empty
  | false =>
      rw [if_neg (by simp)]
      cases computed : everywhere? compute left right with
      | some components =>
          obtain rfl := eq_nil_of_everywhere? (computes kind) computed
          rw [computed] at found
          obtain rfl := Option.some.inj found
          exact absurd empty not_empty
      | none =>
          rw [computed] at found
          exact found

theorem dotFrom_eq (sum : Single) (left right : List Single) :
    dotFrom sum left right =
      if left.length = right.length then
        some ((left.zip right).foldl (fun sum pair => sum.add (pair.1.multiply pair.2)) sum)
      else
        none := by
  induction left generalizing sum right with
  | nil => cases right <;> simp [dotFrom]
  | cons first left ih =>
      cases right with
      | nil => simp [dotFrom]
      | cons second right => simp [dotFrom, ih]

/-- Two operands are folded to what the operator gives on their components. -/
theorem binary?_of_fold {operator : BinaryOperator} {left right value : Value}
    (not_empty : Fold.count value ≠ 0)
    (found : Fold.binaryValue? operator left right = some value) :
    binary? operator left right = some value := by
  cases left with
  | floats left =>
      cases right with
      | floats right =>
          rw [Fold.binaryValue?] at found
          rw [binary?]
          by_cases is_dot : operator = .dot
          · rw [if_pos is_dot] at found ⊢
            rw [dotFrom_eq]
            exact found
          · rw [if_neg is_dot] at found ⊢
            rw [onFloats_eq, compareFloats_eq] at found
            exact compute_or_compare (fun kind => float?_eq_none kind)
              (fun kind => compareFloats?_eq_none kind) rfl not_empty found
      | _ => cases found
  | ints left =>
      cases right with
      | ints right =>
          rw [Fold.binaryValue?, onInts_eq, compareInts_eq] at found
          rw [binary?]
          exact compute_or_compare
            (fun kind one other => Option.map_eq_none_iff.mpr (unbounded?_eq_none kind _ _))
            (fun kind _ _ => compareIntegers?_eq_none kind _ _) rfl not_empty found
      | _ => cases found
  | uints left =>
      cases right with
      | uints right =>
          rw [Fold.binaryValue?, onUints_eq, compareUints_eq] at found
          rw [binary?]
          exact compute_or_compare
            (fun kind one other => Option.map_eq_none_iff.mpr (unbounded?_eq_none kind _ _))
            (fun kind _ _ => compareIntegers?_eq_none kind _ _) rfl not_empty found
      | _ => cases found
  | bools left =>
      cases right with
      | bools right =>
          rw [Fold.binaryValue?, combine?_eq, onBools_eq] at found
          rw [binary?]
          exact found
      | _ => cases found
  | composite left => cases found

theorem unary?_eq (operator : UnaryOperator) (value : Value) :
    Fold.unaryValue? operator value = unary? operator value := by
  have negated (component : Int32) : -component = Int32.ofInt (-component.toInt) := by
    rw [Int32.ofInt_neg, Int32.ofInt_toInt]
  have magnitude (component : Int32) :
      (if component < 0 then -component else component) = Int32.ofInt component.toInt.natAbs := by
    have below : component < 0 ↔ component.toInt < 0 := Int32.lt_iff_toInt_lt
    by_cases negative : component.toInt < 0
    · rw [if_pos (below.mpr negative), negated]
      congr 1
      omega
    · rw [if_neg (mt below.mp negative), Int.natAbs_of_nonneg (by omega), Int32.ofInt_toInt]
  have opposite (component : Bool) : (!component) = decide (component = false) := by
    cases component <;> rfl
  cases operator with
  | negate =>
      cases value with
      | ints components => simp only [Fold.unaryValue?, unary?, ← negated]
      | _ => rfl
  | absolute =>
      cases value with
      | ints components => simp only [Fold.unaryValue?, unary?, ← magnitude]
      | _ => rfl
  | logicalNot =>
      cases value with
      | bools components => simp only [Fold.unaryValue?, unary?, ← opposite]
      | _ => rfl
  | _ => cases value <;> rfl

theorem select?_eq (positions : List Nat) (value : Value) :
    Fold.swizzleValue? positions value = select? positions value := by
  cases value <;> rfl

end Arithmetic

/-! ## Expressions -/

theorem components_ne_zero {ty : Ty} (componentwise : Fold.isComponentwise ty = true) :
    ty.components ≠ 0 := by
  cases ty with
  | scalar kind => simp [Ty.components]
  | vector size kind => cases size <;> simp [Ty.components, VectorSize.count]
  | _ => cases componentwise

/-- An operator at the root of an expression works on the components of constants, and the
expression comes to the constant given. -/
inductive Expr.ComesTo : Expr → Constant → Prop
  | unary {operator : UnaryOperator} {operand : Constant} {value : Value} {ty : Ty} :
      Fold.isComponentwise operand.ty = true →
      Arithmetic.unary? operator operand.value = some value →
      ComesTo (.unary operator (.constant operand) ty) ⟨ty, value⟩
  | binary {operator : BinaryOperator} {left right : Constant} {value : Value} {ty : Ty} :
      Fold.isComponentwise left.ty = true → Fold.isComponentwise right.ty = true →
      Fold.isComponentwise ty = true →
      Arithmetic.binary? operator left.value right.value = some value →
      Fold.count value = ty.components →
      ComesTo (.binary operator (.constant left) (.constant right) ty) ⟨ty, value⟩
  | swizzle {inner : Constant} {positions : List Nat} {value : Value} {ty : Ty} :
      Fold.isComponentwise inner.ty = true →
      Arithmetic.select? positions inner.value = some value →
      ComesTo (.swizzle (.constant inner) positions ty) ⟨ty, value⟩

/-- Whatever an expression is replaced by, it comes to. -/
theorem Expr.comesTo_of_value? {expression : Expr} {result : Constant}
    (found : expression.value? = some result) : expression.ComesTo result := by
  cases expression with
  | unary operator operand ty =>
      cases operand with
      | constant operand =>
          rw [Expr.value?, Fold.unary?] at found
          split at found
          · next componentwise =>
              obtain ⟨value, gives, rfl⟩ := Option.map_eq_some_iff.mp found
              exact .unary componentwise (by rw [← Arithmetic.unary?_eq, gives])
          · cases found
      | _ => cases found
  | binary operator left right ty =>
      cases left with
      | constant left =>
          cases right with
          | constant right =>
              rw [Expr.value?, Fold.binary?] at found
              split at found
              · next componentwise =>
                  split at found
                  · next value gives =>
                      split at found
                      · next fits =>
                          obtain rfl := Option.some.inj found
                          simp only [Bool.and_eq_true] at componentwise
                          obtain ⟨⟨of_left, of_right⟩, of_result⟩ := componentwise
                          have not_empty : Fold.count value ≠ 0 :=
                            fits ▸ components_ne_zero of_result
                          exact .binary of_left of_right of_result
                            (Arithmetic.binary?_of_fold not_empty gives) fits
                      · cases found
                  · cases found
              · cases found
          | _ => cases found
      | _ => cases found
  | swizzle inner positions ty =>
      cases inner with
      | constant inner =>
          rw [Expr.value?, Fold.swizzle?] at found
          split at found
          · next componentwise =>
              obtain ⟨value, gives, rfl⟩ := Option.map_eq_some_iff.mp found
              exact .swizzle componentwise (by rw [← Arithmetic.select?_eq, gives])
          · cases found
      | _ => cases found
  | _ => cases found

/-- A reduced expression has the type it had. -/
theorem Expr.ty_reduce (vars : Arena Variable) (expression : Expr) :
    expression.reduce.ty vars = expression.ty vars := by
  cases found : expression.value? with
  | none => rw [Expr.reduce_of_none found]
  | some result =>
      rw [Expr.reduce_of_value found]
      cases Expr.comesTo_of_value? found <;> rfl

section Evaluation

variable {Store Event : Type} (meaning : Meaning Store Event) (store : Store)

/-- An expression has the value of the constant it comes to. -/
theorem Expr.ComesTo.evaluate {expression : Expr} {result : Constant}
    (comes : expression.ComesTo result) :
    expression.evaluate meaning store = some result.value := by
  cases comes with
  | unary componentwise gives =>
      simp only [Expr.evaluate, Expr.ty, Except.toOption, Option.bind_eq_bind, Option.bind_some,
        Meaning.applyUnary, componentwise, if_true, gives]
      rfl
  | binary of_left of_right of_result gives fits =>
      simp only [Expr.evaluate, Expr.ty, Except.toOption, Option.bind_eq_bind, Option.bind_some,
        Meaning.applyBinary, of_left, of_right, of_result, Bool.and_self, if_true, gives,
        Option.filter, fits, decide_true]
      rfl
  | swizzle componentwise gives =>
      simp only [Expr.evaluate, Expr.ty, Except.toOption, Option.bind_eq_bind, Option.bind_some,
        Meaning.applySwizzle, componentwise, if_true, gives]
      rfl

theorem Expr.evaluate_reduce (expression : Expr) :
    expression.reduce.evaluate meaning store = expression.evaluate meaning store := by
  cases found : expression.value? with
  | none => rw [Expr.reduce_of_none found]
  | some result =>
      rw [Expr.reduce_of_value found,
        (Expr.comesTo_of_value? found).evaluate meaning store, Expr.evaluate]

theorem Place.ty_fold (vars : Arena Variable) (place : Place) :
    place.fold.ty vars = place.ty vars := by
  cases place <;> rfl

/-- A folded expression has the type it had. -/
theorem Expr.ty_fold (vars : Arena Variable) (expression : Expr) :
    expression.fold.ty vars = expression.ty vars := by
  cases expression with
  | load place => exact place.ty_fold vars
  | unary operator operand ty => exact Expr.ty_reduce vars _
  | binary operator left right ty => exact Expr.ty_reduce vars _
  | swizzle inner positions ty => exact Expr.ty_reduce vars _
  | _ => rfl

mutual

theorem Place.locate_fold : (place : Place) →
    place.fold.locate meaning store = place.locate meaning store
  | .whole _ => rfl
  | .element array index _ => by
      rw [Place.fold, Place.locate, Place.locate, array.locate_fold, index.evaluate_fold]
  | .field record _ _ => by rw [Place.fold, Place.locate, Place.locate, record.locate_fold]

/-- A folded expression has the value it had. -/
theorem Expr.evaluate_fold : (expression : Expr) →
    expression.fold.evaluate meaning store = expression.evaluate meaning store
  | .constant _ => rfl
  | .load place => by rw [Expr.fold, Expr.evaluate, Expr.evaluate, place.locate_fold]
  | .unary _ operand _ => by
      rw [Expr.fold, Expr.evaluate_reduce, Expr.evaluate, Expr.evaluate, operand.evaluate_fold,
        operand.ty_fold]
  | .binary _ left right _ => by
      rw [Expr.fold, Expr.evaluate_reduce, Expr.evaluate, Expr.evaluate, left.evaluate_fold,
        right.evaluate_fold, left.ty_fold, right.ty_fold]
  | .swizzle inner _ _ => by
      rw [Expr.fold, Expr.evaluate_reduce, Expr.evaluate, Expr.evaluate, inner.evaluate_fold,
        inner.ty_fold]
  | .compose _ components => by
      rw [Expr.fold, Expr.evaluate, Expr.evaluate, Expr.evaluateAll_fold components]
  | .texture _ coordinate _ => by
      rw [Expr.fold, Expr.evaluate, Expr.evaluate, coordinate.evaluate_fold]

theorem Expr.evaluateAll_fold : (expressions : List Expr) →
    Expr.evaluateAll meaning store (Expr.foldAll expressions) =
      Expr.evaluateAll meaning store expressions
  | [] => rfl
  | expression :: expressions => by
      rw [Expr.foldAll, Expr.evaluateAll, Expr.evaluateAll, expression.evaluate_fold,
        Expr.evaluateAll_fold expressions]

end

/-- An expression without storage has none when it is reduced. -/
theorem Expr.locate?_reduce (expression : Expr) :
    expression.reduce.locate? meaning store = expression.locate? meaning store := by
  cases found : expression.value? with
  | none => rw [Expr.reduce_of_none found]
  | some result =>
      rw [Expr.reduce_of_value found]
      cases Expr.comesTo_of_value? found <;> rfl

/-- A folded expression denotes the storage it denoted. -/
theorem Expr.locate?_fold (expression : Expr) :
    expression.fold.locate? meaning store = expression.locate? meaning store := by
  cases expression with
  | load place => exact place.locate_fold meaning store
  | unary operator operand ty => exact Expr.locate?_reduce meaning store _
  | binary operator left right ty => exact Expr.locate?_reduce meaning store _
  | swizzle inner positions ty =>
      rw [Expr.fold, Expr.locate?_reduce, Expr.locate?, Expr.locate?, inner.locate?_fold]
  | _ => rfl

theorem Expr.argument_fold (expression : Expr) :
    expression.fold.argument meaning store = expression.argument meaning store := by
  rw [Expr.argument, Expr.argument, expression.evaluate_fold, expression.locate?_fold]

theorem Expr.truth?_of_constantBool? {condition : Expr} {holds : Bool}
    (constant : condition.constantBool? = some holds) :
    condition.truth? meaning store = some holds := by
  cases condition with
  | constant value =>
      obtain ⟨ty, payload⟩ := value
      cases payload with
      | bools components =>
          match components, constant with
          | [_], constant => exact constant
      | _ => cases constant
  | _ => cases constant

theorem Expr.truth?_fold (condition : Expr) :
    condition.fold.truth? meaning store = condition.truth? meaning store := by
  rw [Expr.truth?, Expr.truth?, condition.evaluate_fold]

/-- A guard that has been folded, or dropped because it always holds, permits as much. -/
theorem Expr.permits_foldGuard (guard : Option Expr) :
    meaning.operations.permits (Expr.foldGuard guard) store =
      meaning.operations.permits guard store := by
  cases guard with
  | none => rfl
  | some condition =>
      have same := condition.truth?_fold meaning store
      rw [Expr.foldGuard]
      split
      · next always =>
          rw [Expr.truth?_of_constantBool? meaning store always] at same
          exact same
      · exact same

end Evaluation

/-! ## Blocks inside blocks -/

section Rewriting

variable {State Event Value : Type} (operations : Operations State Event Value) (bound : Nat)
variable {change : Block → Block}

mutual

theorem Instruction.execute_mapInnerBlocks
    (keeps : ∀ block state, Block.execute operations bound (change block) state =
      Block.execute operations bound block state) :
    (instruction : Instruction) → (state : State) →
      (Id.run (instruction.mapInnerBlocks fun inner => pure (change inner))).execute
        operations bound state = instruction.execute operations bound state
  | .branch condition accept reject, state => by
      have first := funext (Block.execute_mapInnerBlocks keeps accept)
      have second := funext (Block.execute_mapInnerBlocks keeps reject)
      change Instruction.execute operations bound (.branch condition (change (Id.run _))
        (change (Id.run _))) state = _
      simp only [Instruction.execute, keeps, first, second]
  | .loop body, state => by
      have inner := funext (Block.execute_mapInnerBlocks keeps body)
      change Instruction.execute operations bound (.loop (change (Id.run _))) state = _
      simp only [Instruction.execute, keeps, inner]
  | .declare _, _ | .function _, _ | .assign _ _ _, _ | .call _ _ _, _ | .leave, _ | .next, _
  | .yield _, _ | .discard, _ | .emitVertex, _ | .endPrimitive, _ => rfl

theorem Block.execute_mapInnerBlocks
    (keeps : ∀ block state, Block.execute operations bound (change block) state =
      Block.execute operations bound block state) :
    (block : List Instruction) → (state : State) →
      Block.execute operations bound
        (Id.run (Block.mapInnerBlocks (fun inner => pure (change inner)) block)) state =
        Block.execute operations bound block state
  | [], _ => rfl
  | instruction :: rest, state => by
      have head := Instruction.execute_mapInnerBlocks keeps instruction state
      have tail := funext (Block.execute_mapInnerBlocks keeps rest)
      change Block.execute operations bound (Id.run _ :: Id.run _) state = _
      rw [Block.execute, Block.execute, head, tail]

end

/-- Rewriting a list and all blocks inside it leaves its execution alone if that is so for the
rewriting of a single one. -/
theorem Block.execute_updateBlocks
    (keeps : ∀ block state, Block.execute operations bound (change block) state =
      Block.execute operations bound block state) (block : Block) (state : State) :
    Block.execute operations bound (Block.updateBlocks change block) state =
      Block.execute operations bound block state :=
  (keeps _ state).trans (Block.execute_mapInnerBlocks operations bound keeps block state)

end Rewriting

/-! ## Instructions -/

section Instructions

variable {Store Event : Type} (meaning : Meaning Store Event) (bound : Nat)

/-- An argument is known to a call in the same way when it has been folded. -/
theorem Expr.map_argument_foldAll (store : Store) (arguments : List Expr) :
    (Expr.foldAll arguments).map (Expr.argument meaning store) =
      arguments.map (Expr.argument meaning store) := by
  induction arguments with
  | nil => rfl
  | cons argument arguments ih =>
      rw [Expr.foldAll, List.map_cons, List.map_cons, argument.argument_fold, ih]

theorem Meaning.call_fold (callee : Callee) (arguments : List Expr) (result : Option Place)
    (store : Store) :
    meaning.operations.call callee (Expr.foldAll arguments) (result.map Place.fold) store =
      meaning.operations.call callee arguments result store := by
  cases result with
  | none =>
      change meaning.call _ _ _ _ = meaning.call _ _ _ _
      rw [Expr.map_argument_foldAll]
  | some place =>
      have same := place.locate_fold meaning store
      unfold Meaning.operations
      simp only [Option.map_some, same, Expr.map_argument_foldAll]

theorem Meaning.assign_fold (target : Place) (value : Expr) (store : Store) :
    meaning.operations.assign target.fold value.fold store =
      meaning.operations.assign target value store := by
  unfold Meaning.operations
  simp only [target.locate_fold meaning store, value.evaluate_fold meaning store]

mutual

/-- Folding the operands of an instruction and of those inside it leaves its execution alone. -/
theorem Instruction.execute_fold : (instruction : Instruction) → (store : Store) →
    (Id.run (instruction.mapInstructions fun inner => pure inner.fold)).execute meaning.operations
      bound store = instruction.execute meaning.operations bound store
  | .assign target value guard, store => by
      change Instruction.execute meaning.operations bound
        (.assign target.fold value.fold (Expr.foldGuard guard)) store = _
      simp only [Instruction.execute, Expr.permits_foldGuard, Meaning.assign_fold]
  | .call callee arguments result, store => meaning.call_fold callee arguments result store
  | .branch condition accept reject, store => by
      have first := funext (Block.execute_updateInstructions_fold accept)
      have second := funext (Block.execute_updateInstructions_fold reject)
      have same : meaning.operations.holds condition.fold = meaning.operations.holds condition :=
        funext (condition.truth?_fold meaning)
      change Instruction.execute meaning.operations bound
        (.branch condition.fold (Block.updateInstructions Instruction.fold accept)
          (Block.updateInstructions Instruction.fold reject)) store = _
      simp only [Instruction.execute, same, first, second]
  | .loop body, store => by
      have inner := funext (Block.execute_updateInstructions_fold body)
      change Instruction.execute meaning.operations bound
        (.loop (Block.updateInstructions Instruction.fold body)) store = _
      simp only [Instruction.execute, inner]
  | .yield (some value), store => by
      have same : meaning.operations.value value.fold store =
        meaning.operations.value value store :=
        value.evaluate_fold meaning store
      change Instruction.execute meaning.operations bound (.yield (some value.fold)) store = _
      rw [Instruction.execute, Instruction.execute, same]
  | .yield none, _ | .declare _, _ | .function _, _ | .leave, _ | .next, _ | .discard, _
  | .emitVertex, _ | .endPrimitive, _ => rfl

theorem Block.execute_updateInstructions_fold : (block : List Instruction) → (store : Store) →
    Block.execute meaning.operations bound (Block.updateInstructions Instruction.fold block) store =
      Block.execute meaning.operations bound block store
  | [], _ => rfl
  | instruction :: rest, store => by
      have head := Instruction.execute_fold instruction store
      have tail := funext (Block.execute_updateInstructions_fold rest)
      change Block.execute meaning.operations bound
        (Id.run _ :: Block.updateInstructions Instruction.fold rest) store = _
      rw [Block.execute, Block.execute, head, tail]

end

/-- What is left of an instruction with a constant condition does what the instruction does. -/
theorem Instruction.execute_resolve (instruction : Instruction) (store : Store) :
    Block.execute meaning.operations bound instruction.resolve store =
      instruction.execute meaning.operations bound store := by
  unfold Instruction.resolve
  split
  · next condition accept reject =>
      split
      · next taken =>
          have holds : meaning.operations.holds condition store = some true :=
            Expr.truth?_of_constantBool? meaning store taken
          rw [Instruction.execute, holds]
          rfl
      · next passed =>
          have holds : meaning.operations.holds condition store = some false :=
            Expr.truth?_of_constantBool? meaning store passed
          rw [Instruction.execute, holds]
          rfl
      · rw [Block.execute_singleton]
  · next target value guard =>
      split
      · next never =>
          have holds : meaning.operations.permits (some guard) store = some false :=
            Expr.truth?_of_constantBool? meaning store never
          rw [Instruction.execute, holds]
          rfl
      · rw [Block.execute_singleton]
  · rw [Block.execute_singleton]

theorem Block.execute_resolve (block : Block) (store : Store) :
    Block.execute meaning.operations bound block.resolve store =
      Block.execute meaning.operations bound block store := by
  induction block generalizing store with
  | nil => rfl
  | cons instruction rest ih =>
      have tail := funext ih
      rw [Block.resolve, List.flatMap_cons, Block.execute_append, Instruction.execute_resolve,
        Block.execute]
      congr 1

/-- A list that has been folded does what it did: it reaches the same store, lets the same be seen
on the way, and ends in the same way. -/
theorem Block.execute_fold (block : Block) (store : Store) :
    Block.execute meaning.operations bound block.fold store =
      Block.execute meaning.operations bound block store := by
  rw [Block.fold, Block.execute_updateBlocks _ _ (Block.execute_resolve meaning bound),
    Block.execute_updateInstructions_fold]

end Instructions

/-! ## Shaders -/

/-- Two lists do the same whatever is left open: from every store, and with any bound on the turns
of loops, they reach the same store, let the same be seen and end in the same way. -/
def Block.SameMeaning (block other : Block) : Prop :=
  ∀ {Store Event : Type} (meaning : Meaning Store Event) (bound : Nat) (store : Store),
    Block.execute meaning.operations bound other store =
      Block.execute meaning.operations bound block store

/-- Two expressions have the same type, and the same value in every store. -/
structure Expr.SameMeaning (expression other : Expr) : Prop where
  ty : ∀ vars, other.ty vars = expression.ty vars
  evaluate : ∀ {Store Event : Type} (meaning : Meaning Store Event) (store : Store),
    other.evaluate meaning store = expression.evaluate meaning store

/-- Folding constants keeps the meaning of every list, of every expression, and of all bodies of a
shader. -/
theorem Shader.foldConstants_keeps_meaning (shader : Shader) :
    (∀ block : Block, Block.SameMeaning block block.fold) ∧
      (∀ expression : Expr, Expr.SameMeaning expression expression.fold) ∧
      List.Forall₂ Block.SameMeaning shader.bodies shader.foldConstants.bodies := by
  have blocks : ∀ block : Block, Block.SameMeaning block block.fold :=
    fun block _ _ meaning bound store => block.execute_fold meaning bound store
  refine ⟨blocks, fun expression => ⟨fun vars => expression.ty_fold vars,
    fun meaning store => expression.evaluate_fold meaning store⟩, ?_⟩
  rw [foldConstants, bodies_updateBodies, List.forall₂_map_right_iff]
  exact List.forall₂_same.mpr fun block _ => blocks block

end StageLink
