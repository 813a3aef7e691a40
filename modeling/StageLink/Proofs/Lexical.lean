import StageLink.Proofs.Drafts
import StageLink.Proofs.Scopes

/-!
# Executables with scopes

While an executable is put together, every variable is declared at most once, and what is loose in
the body of a signature is a global, one of its parameters, or one of the variables that `main`
shares with all bodies.  Variables can be reserved for a body that is still to come.
-/

namespace StageLink
namespace Shader

/-- What a body of the executable may declare and what may be loose in it. -/
structure Houses (shader : Shader) (reserved shared : List VariableId) (signature : Signature) :
    Prop where
  parameters : ∀ id ∈ signature.parameters, id < shader.vars.size
  once : (declaredIn signature.body.ownNodes).Nodup
  new : ∀ id ∈ declaredIn signature.body.ownNodes,
    id < shader.vars.size ∧ id ∉ reserved ++ shader.globals
  jumps : Block.orphanedJumps false signature.body = []
  loose : ∀ id ∈ signature.body.loose,
    id ∈ shader.globals ∨ id ∈ signature.parameters ∨ id ∈ shared

/-- No variable is declared twice, and what bodies dereference is in scope. -/
structure Lexical (shader : Shader) (reserved shared : List VariableId) : Prop where
  functions : shader.declaredFunctions.Nodup
  functions_bound : ∀ id ∈ shader.declaredFunctions, id < shader.functions.size
  once : (reserved ++ shader.globals).Nodup
  bound : ∀ id ∈ reserved ++ shader.globals, id < shader.vars.size
  houses : ∀ {callee signature}, callee.function ∈ shader.declaredFunctions →
    shader.At callee signature → shader.Houses reserved shared signature
  apart : ∀ {one other first second}, one.function ∈ shader.declaredFunctions →
    other.function ∈ shader.declaredFunctions → shader.At one first → shader.At other second →
    ∀ id ∈ declaredIn first.body.ownNodes, id ∈ declaredIn second.body.ownNodes → one = other

variable {source shader before after : Shader} {free : VariableId → Prop}
  {reserved shared ids : List VariableId}

/-! ## Growing -/

theorem Growth.declaredFunctions_eq (growth : Growth source free before after) :
    after.declaredFunctions = before.declaredFunctions ∨
      after.declaredFunctions = before.declaredFunctions ++ [before.functions.size] ∧
        after.functions.size = before.functions.size + 1 := by
  cases growth with
  | copy _ => exact .inl rfl
  | global _ _ _ => exact .inl rfl
  | function unknown =>
      refine .inr ⟨?_, by simp [declareFunction, unknown]⟩
      simp only [declareFunction, unknown]
      exact List.filterMap_append
  | announce _ => exact .inl rfl

/-- A signature of a grown shader has been there, or is an announcement. -/
theorem Grows.at_cases (grows : Grows source free before after) {callee : Callee}
    {signature : Signature} (is_declared : callee.function ∈ after.declaredFunctions)
    (there : after.At callee signature) :
    callee.function ∈ before.declaredFunctions ∧ before.At callee signature ∨
      Announced before.vars.size after.vars.size signature := by
  rcases (at_grows grows).2 there with was | announced
  · rcases grows.mem_declaredFunctions is_declared with was_declared | beyond
    · exact .inl ⟨was_declared, was⟩
    · rw [At, signaturesOf_eq_nil beyond] at was
      cases was
  · exact .inr announced

theorem Announced.houses {from_size : Nat} {signature : Signature}
    (announced : Announced from_size shader.vars.size signature) :
    shader.Houses reserved shared signature where
  parameters id inside := (announced.parameters id inside).2
  once := by rw [announced.body]; exact List.nodup_nil
  new := by rw [announced.body]; exact fun id listed => by cases listed
  jumps := by rw [announced.body]; rfl
  loose := by rw [announced.body]; exact fun id listed => by cases listed

/-- Growing keeps a body housed, also if the new variables are reserved. -/
theorem Houses.grows {signature : Signature} (houses : before.Houses reserved shared signature)
    (grows : Grows source free before after) (new : ∀ id ∈ ids, before.vars.size ≤ id) :
    after.Houses (ids ++ reserved) shared signature where
  parameters id inside := Nat.lt_of_lt_of_le (houses.parameters id inside) grows.size_le
  once := houses.once
  new id listed := by
    obtain ⟨below, outside⟩ := houses.new id listed
    simp only [List.mem_append, not_or] at outside ⊢
    refine ⟨Nat.lt_of_lt_of_le below grows.size_le, ⟨fun is_new => ?_, outside.1⟩, fun global => ?_⟩
    · exact Nat.not_le_of_lt below (new id is_new)
    · exact (grows.globals.2 global).elim outside.2 (Nat.not_le_of_lt below)
  jumps := houses.jumps
  loose id listed := (houses.loose id listed).imp_left grows.globals.1

namespace Lexical

theorem growth (lexical : before.Lexical reserved shared)
    (growth : Growth source free before after) :
    after.Lexical reserved shared := by
  have grows : Grows source free before after := .single growth
  have larger := grows.size_le
  refine ⟨?_, ?_, ?_, ?_, fun is_declared there => ?_, fun {one other first second} is_declared
    other_declared there other_there id listed listed_too => ?_⟩
  · rcases growth.declaredFunctions_eq with same | ⟨extended, -⟩
    · rw [same]
      exact lexical.functions
    · rw [extended, List.nodup_append]
      refine ⟨lexical.functions, List.nodup_singleton _, ?_⟩
      rintro id was_declared _ is_new rfl
      exact Nat.lt_irrefl _ (List.mem_singleton.mp is_new ▸ lexical.functions_bound id was_declared)
  · intro id is_declared
    rcases growth.declaredFunctions_eq with same | ⟨extended, size⟩
    · exact Nat.lt_of_lt_of_le (lexical.functions_bound id (same ▸ is_declared))
        grows.functions_size_le
    · rw [extended, List.mem_append, List.mem_singleton] at is_declared
      rw [size]
      rcases is_declared with was_declared | rfl
      · exact Nat.lt_succ_of_lt (lexical.functions_bound id was_declared)
      · exact Nat.lt_succ_self _
  · rcases growth.globals with same | ⟨_, extended, -⟩
    · rw [same]
      exact lexical.once
    · rw [extended, List.perm_middle.nodup_iff, List.nodup_cons]
      exact ⟨fun known => Nat.lt_irrefl _ (lexical.bound _ known), lexical.once⟩
  · intro id listed
    rcases growth.globals with same | ⟨_, extended, found, -⟩
    · exact Nat.lt_of_lt_of_le (lexical.bound id (same ▸ listed)) larger
    · rw [extended, List.perm_middle.mem_iff, List.mem_cons] at listed
      rcases listed with rfl | known
      · exact Arena.lt_of_get? found
      · exact Nat.lt_of_lt_of_le (lexical.bound id known) larger
  · rcases grows.at_cases is_declared there with ⟨was_declared, was⟩ | announced
    · exact (lexical.houses was_declared was).grows grows fun _ (listed : _ ∈ []) => by cases listed
    · exact announced.houses
  · rcases grows.at_cases is_declared there with ⟨was_declared, was⟩ | announced
    · rcases grows.at_cases other_declared other_there
        with ⟨other_was_declared, other_was⟩ | announced
      · exact lexical.apart was_declared other_was_declared was other_was id listed listed_too
      · rw [announced.body] at listed_too
        cases listed_too
    · rw [announced.body] at listed
      cases listed

/-- An executable keeps its scopes while it grows. -/
theorem grows (lexical : before.Lexical reserved shared) (grows : Grows source free before after) :
    after.Lexical reserved shared := by
  induction grows with
  | refl => exact lexical
  | tail _ growth ih => exact ih.growth growth

/-- Variables that have been added and are not declared yet can be reserved. -/
theorem reserve (lexical : before.Lexical reserved shared) (grows : Grows source free before after)
    (distinct : ids.Nodup) (new : ∀ id ∈ ids, before.vars.size ≤ id ∧ id < after.vars.size ∧
      id ∉ after.globals) : after.Lexical (ids ++ reserved) shared := by
  have grown := lexical.grows grows
  refine ⟨grown.functions, grown.functions_bound, ?_, ?_, fun is_declared there => ?_, grown.apart⟩
  · rw [List.append_assoc, List.nodup_append]
    refine ⟨distinct, grown.once, ?_⟩
    rintro id is_new _ known rfl
    rcases List.mem_append.mp known with is_reserved | global
    · have below := lexical.bound id (List.mem_append_left _ is_reserved)
      exact Nat.not_le_of_lt below (new id is_new).1
    · exact (new id is_new).2.2 global
  · intro id listed
    rw [List.append_assoc, List.mem_append] at listed
    exact listed.elim (fun is_new => (new id is_new).2.1) (grown.bound id)
  · rcases grows.at_cases is_declared there with ⟨was_declared, was⟩ | announced
    · exact (lexical.houses was_declared was).grows grows fun id is_new => (new id is_new).1
    · exact announced.houses

theorem houses_of_mem {id : FunctionId} {signature : Signature}
    (lexical : shader.Lexical reserved shared) (is_declared : id ∈ shader.declaredFunctions)
    (listed : signature ∈ shader.signaturesOf id) :
    shader.Houses reserved shared signature := by
  obtain ⟨position, there⟩ := List.mem_iff_getElem?.mp listed
  exact @houses _ _ _ lexical ⟨id, position⟩ _ is_declared there

theorem mono {more : List VariableId} (lexical : shader.Lexical reserved shared)
    (fewer : shared ⊆ more) :
    shader.Lexical reserved more := by
  refine ⟨lexical.functions, lexical.functions_bound, lexical.once, lexical.bound,
    fun is_declared there => ?_, lexical.apart⟩
  have houses := lexical.houses is_declared there
  refine ⟨houses.parameters, houses.once, houses.new, houses.jumps, fun id listed => ?_⟩
  exact (houses.loose id listed).imp_right fun known => known.imp_right
    fun is_shared => fewer is_shared

theorem perm {others : List VariableId} (lexical : shader.Lexical reserved shared)
    (same : reserved.Perm others) : shader.Lexical others shared := by
  have among : ∀ {id}, id ∈ others ++ shader.globals ↔ id ∈ reserved ++ shader.globals :=
    (same.append_right _).symm.mem_iff
  refine ⟨lexical.functions, lexical.functions_bound,
    (same.append_right _).nodup_iff.mp lexical.once,
    fun id listed => lexical.bound id (among.mp listed), fun is_declared there => ?_, lexical.apart⟩
  have houses := lexical.houses is_declared there
  refine ⟨houses.parameters, houses.once, fun id listed => ?_, houses.jumps, houses.loose⟩
  exact ⟨(houses.new id listed).1, fun known => (houses.new id listed).2 (among.mp known)⟩

end Lexical

/-! ## New bodies -/

/-- A signature gets a body that declares what has been reserved or declared in it before. -/
structure Renews (shader : Shader) (reserved shared : List VariableId) (before after : Signature) :
    Prop where
  once : (declaredIn after.body.ownNodes).Nodup
  among : ∀ id ∈ declaredIn after.body.ownNodes,
    id ∈ reserved ∨ id ∈ declaredIn before.body.ownNodes
  jumps : Block.orphanedJumps false after.body = []
  loose : ∀ id ∈ after.body.loose, id ∈ shader.globals ∨ id ∈ before.parameters ∨ id ∈ shared

section Renewal

variable {target : Callee} {change : Signature → Signature}

theorem Renews.among_changed {callee : Callee} {old : Signature} {id : VariableId}
    (renews : callee = target → shader.Renews reserved shared old (change old))
    (listed : id ∈ declaredIn (if callee = target then change old else old).body.ownNodes) :
    id ∈ declaredIn old.body.ownNodes ∨ callee = target ∧ id ∈ reserved := by
  split at listed
  · next same => exact ((renews same).among id listed).symm.imp_right fun known => ⟨same, known⟩
  · exact .inl listed

/-- The bodies of the changed shader have scopes. -/
theorem Lexical.changed_houses {callee : Callee} {old : Signature}
    (lexical : shader.Lexical reserved shared)
    (is_declared : callee.function ∈ shader.declaredFunctions) (was : shader.At callee old)
    (parameters : ∀ signature, (change signature).parameters = signature.parameters)
    (renews : callee = target → shader.Renews reserved shared old (change old)) :
    (shader.modifySignature target change).Houses [] shared
      (if callee = target then change old else old) := by
  have houses := lexical.houses is_declared was
  have new : ∀ id ∈ declaredIn (if callee = target then change old else old).body.ownNodes,
      id < shader.vars.size ∧ id ∉ shader.globals := by
    intro id listed
    rcases Renews.among_changed renews listed with known | ⟨-, known⟩
    · obtain ⟨below, outside⟩ := houses.new id known
      exact ⟨below, fun global => outside (List.mem_append_right _ global)⟩
    · refine ⟨lexical.bound id (List.mem_append_left _ known), fun global => ?_⟩
      exact (List.nodup_append.mp lexical.once).2.2 id known id global rfl
  refine ⟨?_, ?_, new, ?_, ?_⟩
  all_goals split
  · rw [parameters]
    exact houses.parameters
  · exact houses.parameters
  · next same => exact (renews same).once
  · exact houses.once
  · next same => exact (renews same).jumps
  · exact houses.jumps
  · next same =>
      rw [parameters]
      exact (renews same).loose
  · exact houses.loose

/-- An executable keeps its scopes when a signature gets the body that variables are reserved
for. -/
theorem Lexical.modifySignature (lexical : shader.Lexical reserved shared)
    (parameters : ∀ signature, (change signature).parameters = signature.parameters)
    (renews : ∀ {signature}, target.function ∈ shader.declaredFunctions →
      shader.At target signature → shader.Renews reserved shared signature (change signature)) :
    (shader.modifySignature target change).Lexical [] shared := by
  have renews_at : ∀ {callee old}, callee.function ∈ shader.declaredFunctions →
    shader.At callee old →
      callee = target → shader.Renews reserved shared old (change old) := by
    rintro callee old is_declared was rfl
    exact renews is_declared was
  refine ⟨lexical.functions, fun id is_declared => ?_, ?_, ?_,
    fun {callee _} is_declared there => ?_,
    fun {one other first second} is_declared other_declared there other_there id listed
      listed_too => ?_⟩
  · have below := lexical.functions_bound id is_declared
    simpa [Shader.modifySignature] using below
  · exact lexical.once.sublist (List.sublist_append_right _ _)
  · exact fun id global => lexical.bound id (List.mem_append_right _ global)
  · obtain ⟨old, was, rfl⟩ := at_modifySignature.mp there
    exact lexical.changed_houses is_declared was parameters (renews_at is_declared was)
  · obtain ⟨old, was, rfl⟩ := at_modifySignature.mp there
    obtain ⟨older, other_was, rfl⟩ := at_modifySignature.mp other_there
    rcases Renews.among_changed (renews_at is_declared was) listed with known | ⟨at_target, known⟩
    · rcases Renews.among_changed (renews_at other_declared other_was) listed_too with
        known_too | ⟨-, known_too⟩
      · exact lexical.apart is_declared other_declared was other_was id known known_too
      · exact absurd (List.mem_append_left _ known_too)
          ((lexical.houses is_declared was).new id known).2
    · rcases Renews.among_changed (renews_at other_declared other_was) listed_too with
        known_too | ⟨other_at_target, -⟩
      · exact absurd (List.mem_append_left _ known)
          ((lexical.houses other_declared other_was).new id known_too).2
      · exact at_target.trans other_at_target.symm

end Renewal

end Shader

/-! ## Clones -/

namespace CloneM

open Shader

variable {source target : Shader} {free : VariableId → Prop} {final : Cloning} {block clone : Block}
  {renamed : List (VariableId × VariableId)}

/-- What is loose in a clone is a global of the target, or the counterpart that a variable has been
given before. -/
theorem loose_of_copied
    (copied : Cloning.Copied source free ⟨target, renamed⟩ final (declaredIn block.ownNodes)
      (declaredIn clone.ownNodes))
    (alike : Block.Alike (correspondence source free final) block clone)
    (once : (declaredIn block.ownNodes).Nodup)
    (lexical : ∀ id ∈ block.loose, id ∉ declaredIn block.ownNodes)
    (inside : ∀ pair ∈ renamed, pair.2 < target.vars.size) :
    ∀ id ∈ clone.loose, id ∈ final.target.globals ∨ id ∈ renamed.map (·.2) := by
  obtain ⟨fresh, news, keys, values⟩ := copied.fresh
  have keys_once : (fresh.map (·.1)).Nodup := by
    rw [keys]
    exact List.nodup_reverse.mpr once
  have consistent : (correspondence source free final).Consistent
      (fun id => id ∈ final.target.globals ∨ id ∈ renamed.map (·.2))
      (declaredIn clone.ownNodes) := by
    rintro id copy is_copy (declares : _ ∈ final.renamed) other (given | ⟨-, global, -⟩)
    · rw [news.renamed, List.mem_append] at declares given
      rcases given with fresh_too | earlier
      · obtain ⟨pair, listed, rfl⟩ : ∃ pair ∈ fresh, pair.2 = copy := by
          have reversed := List.mem_reverse.mpr is_copy
          rw [← values] at reversed
          exact List.mem_map.mp reversed
        rcases declares with is_fresh | earlier
        · exact .inl (Prod.mk.inj (List.inj_on_of_nodup_map keys_once fresh_too is_fresh rfl)).2
        · exact absurd (inside _ earlier) (Nat.not_lt_of_le (news.new pair listed).1)
      · exact .inr (.inr (List.mem_map.mpr ⟨_, earlier, rfl⟩))
    · exact .inr (.inl global)
  intro other listed
  rcases alike.loose consistent other listed with known | ⟨id, is_loose, given | ⟨-, global, -⟩⟩
  · exact known
  · rw [news.renamed, List.mem_append] at given
    rcases given with is_fresh | earlier
    · have key : id ∈ declaredIn block.ownNodes := by
        rw [← List.mem_reverse, ← keys]
        exact List.mem_map.mpr ⟨_, is_fresh, rfl⟩
      exact absurd key (lexical id is_loose)
    · exact .inr (List.mem_map.mpr ⟨_, earlier, rfl⟩)
  · exact .inl global

/-- The copies of declared variables are new, all different and no globals. -/
theorem new_of_copied {ids copies : List VariableId}
    (copied : Cloning.Copied source free ⟨target, renamed⟩ final ids copies) :
    copies.Nodup ∧ ∀ id ∈ copies, target.vars.size ≤ id ∧ id < final.target.vars.size ∧
      id ∉ final.target.globals := by
  obtain ⟨fresh, news, -, values⟩ := copied.fresh
  refine ⟨List.nodup_reverse.mp (values ▸ news.once), fun id listed => ?_⟩
  rw [← List.mem_reverse, ← values] at listed
  obtain ⟨pair, inside, rfl⟩ := List.mem_map.mp listed
  exact news.new pair inside

end CloneM
end StageLink
