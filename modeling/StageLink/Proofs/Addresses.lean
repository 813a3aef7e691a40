import StageLink.Proofs.Shrinking
import Mathlib.Data.List.Duplicate
import Mathlib.Data.List.Perm.Basic
import Mathlib.Data.Option.Basic

/-!
# Addresses

An instruction list is a tree of parts: lists, instructions, expressions and places, each with the
parts directly inside it.  The address of a part is the way down to it, position by position.  Equal
parts may stand at different addresses, so it is the address that tells one occurrence from another.

A traversal of the tree gives a list of what it has come upon.  It is a tour if it comes upon
everything of a kind exactly once and goes either outside first or inside first: `Tour`.  What the
tours of the inner parts are together, the tour of the whole is next to the part itself:
`tour_outsideFirst` and `tour_insideFirst`.
-/

namespace StageLink

/-- A part of an instruction list. -/
inductive TreePart where
  | block (block : Block)
  | instruction (instruction : Instruction)
  | expr (expression : Expr)
  | place (place : Place)

/-- The way down to a part: the position of each part on it among those inside the one before. -/
abbrev Address := List Nat

namespace TreePart

/-- The parts directly inside a part, in order. -/
def inner : TreePart → List TreePart
  | block instructions => instructions.map instruction
  | instruction (.assign target value guard) => place target :: expr value :: guard.toList.map expr
  | instruction (.call _ arguments result) => arguments.map expr ++ result.toList.map place
  | instruction (.branch condition accept reject) => [expr condition, block accept, block reject]
  | instruction (.loop body) => [block body]
  | instruction (.yield value) => value.toList.map expr
  | instruction _ => []
  | expr (.constant _) => []
  | expr (.load loaded) => [place loaded]
  | expr (.unary _ operand _) => [expr operand]
  | expr (.binary _ left right _) => [expr left, expr right]
  | expr (.swizzle value _ _) => [expr value]
  | expr (.compose _ components) => components.map expr
  | expr (.texture sampler coordinate _) => [place sampler, expr coordinate]
  | place (.whole _) => []
  | place (.element array index _) => [place array, expr index]
  | place (.field record _ _) => [place record]

def at? (part : TreePart) : Address → Option TreePart
  | [] => some part
  | position :: rest => part.inner[position]?.bind (·.at? rest)

/-- The part as a node; lists are none. -/
def node? : TreePart → Option Node
  | block _ => none
  | instruction inside => some (.instruction inside)
  | expr expression => some (.expr expression)
  | place inside => some (.place inside)

/-- The part as a list. -/
def block? : TreePart → Option Block
  | block instructions => some instructions
  | _ => none

def place? : TreePart → Option Place
  | place inside => some inside
  | _ => none

/-- What is at an address, if it is of a kind. -/
def view {Item : Type} (kind : TreePart → Option Item) (part : TreePart)
    (address : Address) : Option Item :=
  (part.at? address).bind kind

@[simp]
theorem node?_eq_instruction {part : TreePart} {inside : Instruction} :
    part.node? = some (.instruction inside) ↔ part = .instruction inside := by
  cases part <;> simp [node?]

@[simp]
theorem node?_eq_place {part : TreePart} {inside : Place} :
    part.node? = some (.place inside) ↔ part = .place inside := by
  cases part <;> simp [node?]

@[simp]
theorem at?_nil (part : TreePart) : part.at? [] = some part := rfl

@[simp]
theorem at?_cons (part : TreePart) (position : Nat) (rest : Address) :
    part.at? (position :: rest) = part.inner[position]?.bind (·.at? rest) := rfl

def IsOperand : TreePart → Prop
  | expr _ | place _ => True
  | _ => False

theorem isOperand_inner {part : TreePart} (operand : part.IsOperand) :
    ∀ inside ∈ part.inner, inside.IsOperand := by
  cases part with
  | block _ | instruction _ => exact operand.elim
  | expr expression => cases expression <;> simp [inner, IsOperand]
  | place inside => cases inside <;> simp [inner, IsOperand]

theorem isOperand_at? {part inside : TreePart} (operand : part.IsOperand) {address : Address}
    (there : part.at? address = some inside) : inside.IsOperand := by
  induction address generalizing part with
  | nil =>
      obtain rfl := Option.some.inj there
      exact operand
  | cons position rest ih =>
      obtain ⟨next, listed, below⟩ := Option.bind_eq_some_iff.mp there
      exact ih (isOperand_inner operand next (List.mem_of_getElem? listed)) below

end TreePart

/-! ## Tours -/

section Tours

variable {Item Kept : Type} {order : Address → Address → Prop} {view : Address → Option Item}
  {items : List Item}

/-- Of two addresses the one further out comes first. -/
def OutsideFirst (earlier later : Address) : Prop := ¬ later <+: earlier

/-- Of two addresses the one further in comes first. -/
def InsideFirst (earlier later : Address) : Prop := ¬ earlier <+: later

/-- The items are what there is to see, each address being visited once and in order. -/
def Tour (order : Address → Address → Prop) (view : Address → Option Item)
    (items : List Item) : Prop :=
  ∃ addresses : List Address, addresses.map view = items.map some ∧
    (∀ address, view address ≠ none → address ∈ addresses) ∧ addresses.Pairwise order

/-- Several views side by side, chosen by the first position. -/
def sideBySide (views : List (Address → Option Item)) : Address → Option Item
  | [] => none
  | position :: rest => views[position]?.bind (· rest)

/-- One further position comes before. -/
def shifted (address : Address) : Address := address.modifyHead (· + 1)

/-- An order that goes through parts side by side one after the other. -/
structure PartByPart (order : Address → Address → Prop) : Prop where
  below : ∀ {position : Nat} {earlier later : Address}, order earlier later →
    order (position :: earlier) (position :: later)
  shift : ∀ {earlier later : Address}, order earlier later → order (shifted earlier) (shifted later)
  across : ∀ {position : Nat} {earlier later : Address},
    order (0 :: earlier) ((position + 1) :: later)
  once : ∀ {address : Address}, ¬ order address address

theorem shifted_isPrefix {address other : Address} :
    shifted address <+: shifted other ↔ address <+: other := by
  cases address with
  | nil => simp [shifted]
  | cons position rest =>
      cases other with
      | nil => simp [shifted]
      | cons position' rest' => simp [shifted, List.cons_prefix_cons]

theorem partByPart_outsideFirst : PartByPart OutsideFirst where
  below apart inside := apart (List.cons_prefix_cons.mp inside).2
  shift apart inside := apart (shifted_isPrefix.mp inside)
  across inside := absurd (List.cons_prefix_cons.mp inside).1 (Nat.succ_ne_zero _)
  once apart := apart (List.prefix_refl _)

theorem partByPart_insideFirst : PartByPart InsideFirst where
  below apart inside := apart (List.cons_prefix_cons.mp inside).2
  shift apart inside := apart (shifted_isPrefix.mp inside)
  across inside := absurd (List.cons_prefix_cons.mp inside).1.symm (Nat.succ_ne_zero _)
  once apart := apart (List.prefix_refl _)

theorem PartByPart.nodup (by_part : PartByPart order) {addresses : List Address}
    (ordered : addresses.Pairwise order) : addresses.Nodup := by
  apply ordered.imp
  rintro address _ apart rfl
  exact by_part.once apart

@[simp]
theorem sideBySide_shifted (first : Address → Option Item) (views : List (Address → Option Item))
    (address : Address) :
    sideBySide (first :: views) (shifted address) = sideBySide views address := by
  cases address with
  | nil => rfl
  | cons position rest => simp [sideBySide, shifted]

namespace Tour

/-- Where there is nothing to see the tour is empty. -/
theorem nil (nothing : ∀ address, view address = none) : Tour order view [] :=
  ⟨[], rfl, fun address seen => absurd (nothing address) seen, .nil⟩

/-- A tour leads to everything there is to see. -/
theorem mem_iff (tour : Tour order view items) {item : Item} :
    item ∈ items ↔ ∃ address, view address = some item := by
  obtain ⟨addresses, listed, covered, -⟩ := tour
  have among : some item ∈ addresses.map view ↔ item ∈ items := by
    rw [listed]
    simp
  rw [← among, List.mem_map]
  constructor
  · rintro ⟨address, -, seen⟩
    exact ⟨address, seen⟩
  · rintro ⟨address, seen⟩
    exact ⟨address, covered address (by simp [seen]), seen⟩

/-- What is seen twice on the way through different addresses is at two of them. -/
theorem duplicate_iff_of_map {addresses : List Address} (distinct : addresses.Nodup)
    (listed : addresses.map view = items.map some) {item : Item} :
    items.Duplicate item ↔ ∃ address ∈ addresses, ∃ other ∈ addresses,
      address ≠ other ∧ view address = some item ∧ view other = some item := by
  induction addresses generalizing items with
  | nil =>
      obtain rfl : items = [] := by simpa using listed.symm
      simp [List.not_duplicate_nil]
  | cons first addresses ih =>
      cases items with
      | nil => cases listed
      | cons head items =>
          obtain ⟨seen, listed⟩ := List.cons.inj listed
          obtain ⟨fresh, distinct⟩ := List.nodup_cons.mp distinct
          have later : item ∈ items ↔ ∃ address ∈ addresses, view address = some item := by
            rw [← List.mem_map, listed, List.mem_map_of_injective (Option.some_injective Item)]
          rw [List.duplicate_cons_iff, ih distinct listed, later]
          grind

/-- What a tour comes upon twice is at two addresses. -/
theorem duplicate_iff (by_part : PartByPart order) (tour : Tour order view items) {item : Item} :
    items.Duplicate item ↔
      ∃ address other, address ≠ other ∧ view address = some item ∧ view other = some item := by
  obtain ⟨addresses, listed, covered, ordered⟩ := tour
  rw [duplicate_iff_of_map (by_part.nodup ordered) listed]
  constructor
  · rintro ⟨address, -, other, -, apart, sees, sees_too⟩
    exact ⟨address, other, apart, sees, sees_too⟩
  · rintro ⟨address, other, apart, sees, sees_too⟩
    exact ⟨address, covered address (by simp [sees]), other,
      covered other (by simp [sees_too]), apart,
      sees, sees_too⟩

theorem filterMap (tour : Tour order view items) (interest : Item → Option Kept) :
    Tour order (fun address => (view address).bind interest) (items.filterMap interest) := by
  obtain ⟨addresses, listed, covered, ordered⟩ := tour
  refine ⟨addresses.filter fun address => ((view address).bind interest).isSome, ?_, ?_,
    ordered.filter _⟩
  · have each : (addresses.filter fun address => ((view address).bind interest).isSome).map
          (fun address => (view address).bind interest) =
        ((addresses.map view).map fun seen => seen.bind interest).filter Option.isSome := by
      rw [List.map_map, List.filter_map]
      rfl
    rw [each, listed, List.map_map]
    clear each listed
    induction items with
    | nil => rfl
    | cons item items ih =>
        rw [List.filterMap_cons, List.map_cons]
        cases found : interest item with
        | none => simpa [found] using ih
        | some kept => simpa [found] using ih
  · intro address seen
    have there : view address ≠ none := fun none_there => seen (by simp [none_there])
    exact List.mem_filter.mpr ⟨covered address there, Option.isSome_iff_ne_none.mpr seen⟩

/-- Two tours of the same come upon the same, whatever their orders. -/
theorem perm {other : Address → Address → Prop} {visited : List Item} (by_part : PartByPart order)
    (by_part_too : PartByPart other) (tour : Tour order view items)
    (tour_too : Tour other view visited) :
    items.Perm visited := by
  obtain ⟨addresses, listed, covered, ordered⟩ := tour
  obtain ⟨others, listed_too, covered_too, ordered_too⟩ := tour_too
  have seen_of_mem : ∀ {items : List Item} {addresses : List Address} {address},
      addresses.map view = items.map some → address ∈ addresses → view address ≠ none := by
    intro items addresses address listed there none_there
    have among := List.mem_map_of_mem (f := view) there
    rw [listed, none_there] at among
    simp at among
  have same : addresses.Perm others := by
    rw [List.perm_ext_iff_of_nodup (by_part.nodup ordered) (by_part_too.nodup ordered_too)]
    intro address
    exact ⟨fun there => covered_too address (seen_of_mem listed there),
      fun there => covered address (seen_of_mem listed_too there)⟩
  have mapped := same.map view
  rw [listed, listed_too] at mapped
  exact (List.map_perm_map_iff (Option.some_injective _)).mp mapped

/-- A tour with a first view goes through it and then through the others. -/
theorem beside_cons {views : List (Address → Option Item)} {more : List Item}
    (by_part : PartByPart order) (tour : Tour order view items)
    (rest : Tour order (sideBySide views) more) :
    Tour order (sideBySide (view :: views)) (items ++ more) := by
  obtain ⟨addresses, listed, covered, ordered⟩ := tour
  obtain ⟨others, listed_too, covered_too, ordered_too⟩ := rest
  refine ⟨addresses.map (0 :: ·) ++ others.map shifted, ?_, ?_, ?_⟩
  · rw [List.map_append, List.map_map, List.map_map, List.map_append, ← listed, ← listed_too]
    congr 1
    exact List.map_congr_left fun address _ => sideBySide_shifted view views address
  · intro address seen
    cases address with
    | nil => exact absurd rfl seen
    | cons position rest =>
        rw [List.mem_append]
        cases position with
        | zero => exact .inl (List.mem_map_of_mem (covered rest seen))
        | succ position =>
            exact .inr (List.mem_map_of_mem (f := shifted) (covered_too (position :: rest) seen))
  · rw [List.pairwise_append, List.pairwise_map, List.pairwise_map]
    refine ⟨ordered.imp by_part.below, ordered_too.imp by_part.shift, ?_⟩
    intro one in_first other in_rest
    obtain ⟨address, -, rfl⟩ := List.mem_map.mp in_first
    obtain ⟨address', there, rfl⟩ := List.mem_map.mp in_rest
    have among := List.mem_map_of_mem (f := sideBySide views) there
    rw [listed_too] at among
    cases address' with
    | nil => simp [sideBySide] at among
    | cons position rest => exact by_part.across

theorem beside {views : List (Address → Option Item)} {lists : List (List Item)}
    (by_part : PartByPart order) (each : List.Forall₂ (Tour order) views lists) :
    Tour order (sideBySide views) lists.flatten := by
  induction each with
  | nil =>
      apply nil
      intro address
      cases address <;> rfl
  | cons tour _ ih => exact beside_cons by_part tour ih

/-- What the tours through the inner parts are together, which is a tour but for the part itself. -/
theorem deeper {kind : TreePart → Option Item} {part : TreePart} {lists : List (List Item)}
    (by_part : PartByPart order)
    (each : List.Forall₂ (fun inside items => Tour order (TreePart.view kind inside) items)
      part.inner lists) :
    ∃ addresses : List Address, addresses.map (part.view kind) = lists.flatten.map some ∧
      (∀ address, part.view kind address ≠ none → address ≠ [] → address ∈ addresses) ∧
      addresses.Pairwise order ∧ [] ∉ addresses := by
  obtain ⟨addresses, listed, covered, ordered⟩ :=
    beside by_part (List.forall₂_map_left_iff.mpr each)
  have below : ∀ position rest, part.view kind (position :: rest) =
      StageLink.sideBySide (part.inner.map (TreePart.view kind)) (position :: rest) := by
    intro position rest
    rw [TreePart.view, TreePart.at?_cons, Option.bind_assoc, StageLink.sideBySide,
      List.getElem?_map,
      Option.bind_map]
    rfl
  have nowhere : [] ∉ addresses := by
    intro there
    have among :=
      List.mem_map_of_mem (f := StageLink.sideBySide (part.inner.map (TreePart.view kind))) there
    rw [listed] at among
    simp [StageLink.sideBySide] at among
  refine ⟨addresses, ?_, ?_, ordered, nowhere⟩
  · rw [← listed]
    apply List.map_congr_left
    intro address there
    cases address with
    | nil => exact absurd there nowhere
    | cons position rest => exact below position rest
  · intro address seen inside
    cases address with
    | nil => exact absurd rfl inside
    | cons position rest => exact covered _ (below position rest ▸ seen)

end Tour

section Whole

variable {kind : TreePart → Option Item} {part : TreePart} {lists : List (List Item)}

/-- A part and then the tours through the parts inside it. -/
theorem tour_outsideFirst (each : List.Forall₂
      (fun inside items => Tour OutsideFirst (TreePart.view kind inside) items) part.inner lists)
    (listed : items = (kind part).toList ++ lists.flatten) :
    Tour OutsideFirst (part.view kind) items := by
  subst listed
  obtain ⟨addresses, listed, covered, ordered, deep⟩ := Tour.deeper partByPart_outsideFirst each
  have root : part.view kind [] = kind part := rfl
  cases here : kind part with
  | none =>
      refine ⟨addresses, listed, fun address seen => covered address seen ?_, ordered⟩
      rintro rfl
      exact seen (root.trans here)
  | some item =>
      refine ⟨[] :: addresses, by simp [root, here, listed], fun address seen => ?_, ?_⟩
      · cases address with
        | nil => exact List.mem_cons_self
        | cons position rest => exact List.mem_cons_of_mem _ (covered _ seen (by simp))
      · rw [List.pairwise_cons]
        refine ⟨fun address there inside => ?_, ordered⟩
        exact deep (List.prefix_nil.mp inside ▸ there)

theorem tour_insideFirst (each : List.Forall₂
      (fun inside items => Tour InsideFirst (TreePart.view kind inside) items) part.inner lists)
    (listed : items = lists.flatten ++ (kind part).toList) :
    Tour InsideFirst (part.view kind) items := by
  subst listed
  obtain ⟨addresses, listed, covered, ordered, deep⟩ := Tour.deeper partByPart_insideFirst each
  have root : part.view kind [] = kind part := rfl
  cases here : kind part with
  | none =>
      rw [Option.toList_none, List.append_nil]
      refine ⟨addresses, listed, fun address seen => covered address seen ?_, ordered⟩
      rintro rfl
      exact seen (root.trans here)
  | some item =>
      refine ⟨addresses ++ [[]], by simp [root, here, listed], fun address seen => ?_, ?_⟩
      · cases address with
        | nil => exact List.mem_append_right _ List.mem_cons_self
        | cons position rest => exact List.mem_append_left _ (covered _ seen (by simp))
      · rw [List.pairwise_append]
        refine ⟨ordered, List.pairwise_singleton _ _, fun address there other at_root inside => ?_⟩
        obtain rfl := List.mem_singleton.mp at_root
        exact deep (List.prefix_nil.mp inside ▸ there)

end Whole
end Tours

/-! ## Nodes -/

/-- The nodes of a part, each of them once and outside first. -/
def TreePart.HasNodes (part : TreePart) (nodes : List Node) : Prop :=
  Tour OutsideFirst (part.view TreePart.node?) nodes

mutual

theorem Place.hasNodes : (place : Place) → (TreePart.place place).HasNodes place.nodes
  | .whole _ => tour_outsideFirst .nil rfl
  | .element array index _ =>
      tour_outsideFirst (.cons array.hasNodes (.cons index.hasNodes .nil))
        (by simp [TreePart.node?, Place.nodes])
  | .field record _ _ =>
      tour_outsideFirst (.cons record.hasNodes .nil) (by simp [TreePart.node?, Place.nodes])

theorem Expr.hasNodes : (expression : Expr) → (TreePart.expr expression).HasNodes expression.nodes
  | .constant _ => tour_outsideFirst .nil rfl
  | .load place =>
      tour_outsideFirst (.cons place.hasNodes .nil) (by simp [TreePart.node?, Expr.nodes])
  | .unary _ operand _ =>
      tour_outsideFirst (.cons operand.hasNodes .nil) (by simp [TreePart.node?, Expr.nodes])
  | .binary _ left right _ =>
      tour_outsideFirst (.cons left.hasNodes (.cons right.hasNodes .nil))
        (by simp [TreePart.node?, Expr.nodes])
  | .swizzle value _ _ =>
      tour_outsideFirst (.cons value.hasNodes .nil) (by simp [TreePart.node?, Expr.nodes])
  | .compose _ components =>
      tour_outsideFirst (Expr.haveNodes components)
        (by simp [TreePart.node?, Expr.nodes, List.flatMap_def])
  | .texture sampler coordinate _ =>
      tour_outsideFirst (.cons sampler.hasNodes (.cons coordinate.hasNodes .nil))
        (by simp [TreePart.node?, Expr.nodes])

theorem Expr.haveNodes : (expressions : List Expr) →
    List.Forall₂ TreePart.HasNodes (expressions.map TreePart.expr) (expressions.map Expr.nodes)
  | [] => .nil
  | expression :: expressions => .cons expression.hasNodes (Expr.haveNodes expressions)

end

theorem Place.haveNodes (place : Option Place) :
    List.Forall₂ TreePart.HasNodes (place.toList.map TreePart.place)
      (place.toList.map Place.nodes) := by
  cases place with
  | none => exact .nil
  | some place => exact .cons place.hasNodes .nil

theorem Block.ownNodes_eq_flatten (block : Block) :
    block.ownNodes = (block.map fun instruction => instruction.nodes fun _ => []).flatten := by
  induction block with
  | nil => rfl
  | cons instruction rest ih => rw [Block.ownNodes_cons, ih, List.map_cons, List.flatten_cons]

theorem Block.hasNodes_of_instructions {block : Block}
    (each : List.Forall₂ TreePart.HasNodes (block.map TreePart.instruction)
      (block.map fun instruction => instruction.nodes fun _ => [])) :
    (TreePart.block block).HasNodes block.ownNodes :=
  tour_outsideFirst each block.ownNodes_eq_flatten

mutual

theorem Instruction.hasNodes : (instruction : Instruction) →
    (TreePart.instruction instruction).HasNodes (instruction.nodes fun _ => [])
  | .assign target value guard =>
      tour_outsideFirst (.cons target.hasNodes (.cons value.hasNodes (Expr.haveNodes guard.toList)))
        (by simp [TreePart.node?, Instruction.nodes, Instruction.operandNodes, List.flatMap_def])
  | .call _ arguments result =>
      tour_outsideFirst (List.rel_append (Expr.haveNodes arguments) (Place.haveNodes result))
        (by simp [TreePart.node?, Instruction.nodes, Instruction.operandNodes, List.flatMap_def])
  | .branch condition accept reject =>
      tour_outsideFirst
        (.cons condition.hasNodes (.cons (Block.hasNodes_of_instructions (Block.haveNodes accept))
          (.cons (Block.hasNodes_of_instructions (Block.haveNodes reject)) .nil)))
        (by simp [TreePart.node?, Instruction.nodes, Block.ownNodes])
  | .loop body =>
      tour_outsideFirst (.cons (Block.hasNodes_of_instructions (Block.haveNodes body)) .nil)
        (by simp [TreePart.node?, Instruction.nodes, Block.ownNodes])
  | .yield value =>
      tour_outsideFirst (Expr.haveNodes value.toList)
        (by simp [TreePart.node?, Instruction.nodes, Instruction.operandNodes, List.flatMap_def])
  | .declare _ | .function _ | .leave | .next | .discard | .emitVertex | .endPrimitive =>
      tour_outsideFirst .nil rfl

theorem Block.haveNodes : (block : List Instruction) →
    List.Forall₂ TreePart.HasNodes (block.map TreePart.instruction)
      (block.map fun instruction => instruction.nodes fun _ => [])
  | [] => .nil
  | instruction :: rest => .cons instruction.hasNodes (Block.haveNodes rest)

end

/-- The nodes of an instruction list are what its parts are, each of them once and outside first. -/
theorem Block.hasNodes (block : Block) : (TreePart.block block).HasNodes block.ownNodes :=
  Block.hasNodes_of_instructions (Block.haveNodes block)

end StageLink
