import StageLink.Proofs.Captures
import StageLink.Proofs.Varyings
import StageLink.Stage.Merge
import StageLink.Uniform.Quota

/-!
# Headroom

Where limits are raised, slots become available only above those there have been.  A claim that has
been possible stays so, and the lowest free span is where it has been, because every lower one ends
below the old limit.  So an allocation within some limits goes the same way within greater ones, and
a check that has been passed is passed again.
-/

namespace StageLink

/-! ## Limits -/

/-- No limit is less than before. -/
structure Limits.AtMost (limits raised : Limits) : Prop where
  vertexAttributes : limits.vertexAttributes ≤ raised.vertexAttributes
  drawBuffers : limits.drawBuffers ≤ raised.drawBuffers
  dualSourceDrawBuffers : limits.dualSourceDrawBuffers ≤ raised.dualSourceDrawBuffers
  varyingComponents : limits.varyingComponents ≤ raised.varyingComponents
  outputComponents : ∀ stage, limits.outputComponents.get stage ≤ raised.outputComponents.get stage
  inputComponents : ∀ stage, limits.inputComponents.get stage ≤ raised.inputComponents.get stage
  textureUnits : ∀ stage, limits.textureUnits.get stage ≤ raised.textureUnits.get stage
  uniformComponents : ∀ stage,
    limits.uniformComponents.get stage ≤ raised.uniformComponents.get stage
  combinedUniformComponents : ∀ stage,
    limits.combinedUniformComponents.get stage ≤ raised.combinedUniformComponents.get stage
  uniformBlocks : ∀ stage, limits.uniformBlocks.get stage ≤ raised.uniformBlocks.get stage
  combinedUniformBlocks : limits.combinedUniformBlocks ≤ raised.combinedUniformBlocks
  uniformBlockSize : limits.uniformBlockSize ≤ raised.uniformBlockSize
  interleavedComponents : limits.interleavedComponents ≤ raised.interleavedComponents
  separateComponents : limits.separateComponents ≤ raised.separateComponents
  feedbackBuffers : limits.feedbackBuffers ≤ raised.feedbackBuffers

/-- The second options have the same interface, limits that are at least those of the first, and are
as lenient at least. -/
structure Options.Raised (options raised : Options) : Prop where
  limits : options.limits.AtMost raised.limits
  lenientUniforms : options.lenientUniforms = true → raised.lenientUniforms = true
  embeddedApi : raised.embeddedApi = options.embeddedApi

variable {limits raised : Limits}

theorem Limits.AtMost.varyingSlots (at_most : limits.AtMost raised) :
    limits.varyingSlots ≤ raised.varyingSlots := by
  have more := at_most.varyingComponents
  simp only [Limits.varyingSlots]
  omega

theorem Limits.AtMost.colorOutputs (at_most : limits.AtMost raised) :
    limits.colorOutputs ≤ raised.colorOutputs := by
  have more := at_most.drawBuffers
  have dual := at_most.dualSourceDrawBuffers
  simp only [Limits.colorOutputs]
  omega

/-! ## Slots -/

namespace SlotSet

/-- The second set takes the same slots below a limit, from which on all are taken in the first, and
no slot that is free in the first. -/
structure Widened (limit : Nat) (used wider : SlotSet) : Prop where
  same : ∀ slot < limit, wider.getLsbD slot = used.getLsbD slot
  fewer : ∀ slot, wider.getLsbD slot = true → used.getLsbD slot = true
  beyond : ∀ slot < 32, limit ≤ slot → used.getLsbD slot = true

namespace Widened

variable {limit larger base count : Nat} {used wider taken : SlotSet}

theorem reservedAbove (more : limit ≤ larger) :
    Widened limit (reservedAbove limit) (reservedAbove larger) where
  same slot below := by
    have outside : ¬ larger ≤ slot := by omega
    have outside_too : ¬ limit ≤ slot := by omega
    simp [getLsbD_reservedAbove, outside, outside_too]
  fewer slot := by
    simp only [getLsbD_reservedAbove, Bool.and_eq_true, decide_eq_true_eq]
    exact fun ⟨inside, above⟩ => ⟨inside, Nat.le_trans more above⟩
  beyond slot inside above := by simp [getLsbD_reservedAbove, inside, above]

/-- Taking some slots in both sets. -/
theorem or (widened : Widened limit used wider) (taken : SlotSet) :
    Widened limit (used ||| taken) (wider ||| taken) where
  same slot below := by simp only [BitVec.getLsbD_or, widened.same slot below]
  fewer slot := by
    simp only [BitVec.getLsbD_or, Bool.or_eq_true]
    exact Or.imp_left (widened.fewer slot)
  beyond slot inside above := by simp [widened.beyond slot inside above]

theorem isFree (widened : Widened limit used wider) (free : used.isFree base count = true) :
    wider.isFree base count = true := by
  rw [isFree_iff] at free ⊢
  intro slot inside covers
  by_contra taken
  have taken_before := widened.fewer slot (by simpa using taken)
  rw [free slot inside covers] at taken_before
  cases taken_before

/-- A claim can be made in the wider set, too. -/
theorem claim? (widened : Widened limit used wider)
    (claimed : used.claim? base count = some taken) :
    ∃ taken_wider, wider.claim? base count = some taken_wider ∧
      Widened limit taken taken_wider := by
  rcases claim?_eq_some claimed with ⟨rfl, rfl⟩ | ⟨some_asked, fits, free, rfl⟩
  · exact ⟨wider, rfl, widened⟩
  · refine ⟨wider ||| span base count, ?_, widened.or _⟩
    rw [SlotSet.claim?, if_neg (Nat.ne_of_gt some_asked), if_neg (Nat.not_lt_of_le fits),
      if_pos (widened.isFree free)]

/-- A free span ends below the limit. -/
theorem le_limit (widened : Widened limit used wider) (some_asked : 0 < count)
    (fits : base + count ≤ 32) (free : used.isFree base count = true) : base + count ≤ limit := by
  by_contra beyond
  have last_free := isFree_iff.mp free (base + count - 1) (by omega)
    ⟨by dsimp only; omega, by dsimp only; omega⟩
  rw [widened.beyond (base + count - 1) (by omega) (by omega)] at last_free
  cases last_free

/-- Extra room at the top does not move the lowest free span. -/
theorem findFree? (widened : Widened limit used wider) (found : used.findFree? count = some base) :
    wider.findFree? count = some base := by
  obtain ⟨some_asked, fits, free⟩ := findFree?_eq_some found
  have ends := widened.le_limit some_asked fits free
  unfold SlotSet.findFree? at found ⊢
  split at found
  · cases found
  · next sensible =>
      rw [if_neg sensible]
      rw [List.find?_range_eq_some] at found ⊢
      obtain ⟨-, listed, lower_taken⟩ := found
      refine ⟨widened.isFree free, listed, fun lower below => ?_⟩
      have taken := lower_taken lower below
      rw [Bool.not_eq_true', ← Bool.not_eq_true] at taken ⊢
      refine fun free_wider => taken (isFree_iff.mpr fun slot inside covers => ?_)
      have below_limit : slot < limit := Nat.lt_of_lt_of_le covers.2 (by dsimp only; omega)
      rw [← widened.same slot below_limit]
      exact isFree_iff.mp free_wider slot inside covers

end Widened

end SlotSet

/-! ## Attributes and fragment outputs -/

namespace Attribute

open SlotSet

variable {target : AttributeTarget} {bindings : Bindings} {limit larger : Nat}

theorem claim?_widens {used wider taken : SlotSet} {declared : Variable} {location : Nat}
    (widened : Widened limit used wider) (claimed : claim? used declared location = some taken) :
    ∃ taken_wider, claim? wider declared location = some taken_wider ∧
      Widened limit taken taken_wider := by
  unfold claim? at claimed ⊢
  split at claimed
  · next own =>
      rw [if_pos own]
      exact widened.claim? claimed
  · next shared =>
      rw [if_neg shared]
      obtain rfl := Option.some.inj claimed
      exact ⟨wider, rfl, widened⟩

/-- Explicit and bound locations that have been claimed are claimed again. -/
theorem claimAll_widens (more : limit ≤ larger) {ids : List VariableId} :
    ∀ {allocation reached : Allocation} {wider : SlotSet}, Widened limit allocation.used wider →
      claimAll target limit bindings allocation ids = .ok (reached, none) →
      ∃ used, claimAll target larger bindings { allocation with used := wider } ids =
        .ok ({ reached with used := used }, none) ∧ Widened limit reached.used used := by
  induction ids with
  | nil =>
      intro allocation reached wider widened runs
      obtain rfl : allocation = reached := by simpa [claimAll] using runs
      exact ⟨wider, rfl, widened⟩
  | cons id ids ih =>
      intro allocation reached wider widened runs
      rw [claimAll] at runs ⊢
      obtain ⟨declared, fetched, following⟩ := Checked.bind_eq_ok.mp runs
      rw [fetched, Checked.ok_bind]
      split at following
      · next skipped =>
          rw [if_pos skipped]
          exact ih widened following
      · next not_skipped =>
          rw [if_neg not_skipped]
          split at following
          · simp at following
          · next valid =>
              have still_valid :
                  ¬ (declared.explicitLocation && declared.location.any (larger ≤ ·)) = true := by
                simp only [Bool.and_eq_true, Option.any_eq_true, decide_eq_true_eq] at valid ⊢
                rintro ⟨explicit, location, located, beyond⟩
                exact valid ⟨explicit, location, located, Nat.le_trans more beyond⟩
              rw [if_neg still_valid]
              dsimp only at following ⊢
              split at following
              · exact @ih _ _ _ (by exact widened) following
              · split at following
                · next claimed =>
                    obtain ⟨taken, claimed_wider, still⟩ := claim?_widens widened claimed
                    rw [claimed_wider]
                    exact ih still following
                · simp at following

theorem placeAll_widens {pairs : List (VariableId × Nat)} :
    ∀ {shader result : Shader} {used wider : SlotSet}, Widened limit used wider →
      placeAll target shader used pairs = (result, none) →
      placeAll target shader wider pairs = (result, none) := by
  induction pairs with
  | nil => exact fun _ runs => runs
  | cons pair pairs ih =>
      intro shader result used wider widened runs
      rw [placeAll] at runs ⊢
      split at runs
      · cases runs
      · next found =>
          rw [widened.findFree? found]
          exact ih (widened.or _) runs

/-- An allocation that does not fail is the same with more slots. -/
theorem allocate_widens (more : limit ≤ larger) {shader result : Shader}
    (runs : allocate target limit bindings shader = .ok (result, none)) :
    allocate target larger bindings shader = .ok (result, none) := by
  rw [allocate] at runs ⊢
  obtain ⟨⟨allocation, failure⟩, claims, following⟩ := Checked.bind_eq_ok.mp runs
  dsimp only at following
  split at following
  · next finished =>
      obtain ⟨rfl, rfl⟩ : allocation.shader = result ∧ failure = none := by simpa using following
      obtain ⟨used, claims_wider, -⟩ := claimAll_widens more (Widened.reservedAbove more) claims
      rw [claims_wider, Checked.ok_bind]
      exact if_pos finished
  · next pending =>
      obtain rfl : failure = none := by
        cases failure with
        | none => rfl
        | some _ => simp at pending
      obtain ⟨used, claims_wider, widened⟩ :=
        claimAll_widens more (Widened.reservedAbove more) claims
      rw [claims_wider, Checked.ok_bind]
      dsimp only
      rw [if_neg pending]
      have places : ∀ reserved : Bool,
          (pure (placeAll target allocation.shader
            (if reserved then allocation.used ||| 1 else allocation.used)
            (largestFirst (·.2) allocation.pending)) : Checked _) = .ok (result, none) →
          (pure (placeAll target allocation.shader (if reserved then used ||| 1 else used)
            (largestFirst (·.2) allocation.pending)) : Checked _) = .ok (result, none) := by
        intro reserved placing
        rw [Checked.pure_eq_ok] at placing ⊢
        have still : Widened limit (if reserved then allocation.used ||| 1 else allocation.used)
            (if reserved then used ||| 1 else used) := by
          split
          · exact widened.or 1
          · exact widened
        exact placeAll_widens still placing
      split at following
      · next is_target =>
          rw [if_pos is_target]
          obtain ⟨reserved, looks, placing⟩ := Checked.bind_eq_ok.mp following
          exact Checked.bind_eq_ok.mpr ⟨reserved, looks, places reserved placing⟩
      · next other_target =>
          rw [if_neg other_target]
          exact places false following

end Attribute

/-! ## Varyings -/

namespace Varying

open SlotSet

variable {inputs : NameTable VariableId} {captured : List String} {limit larger : Nat}

theorem claimAll_widens (more : limit ≤ larger) {ids : List VariableId} :
    ∀ {allocation reached : Allocation} {wider : SlotSet}, Widened limit allocation.used wider →
      claimAll inputs captured limit allocation ids = .ok (reached, none) →
      ∃ used, claimAll inputs captured larger { allocation with used := wider } ids =
        .ok ({ reached with used := used }, none) ∧ Widened limit reached.used used := by
  induction ids with
  | nil =>
      intro allocation reached wider widened runs
      obtain rfl : allocation = reached := by simpa [claimAll] using runs
      exact ⟨wider, rfl, widened⟩
  | cons id ids ih =>
      intro allocation reached wider widened runs
      rw [claimAll] at runs ⊢
      obtain ⟨output, fetched, following⟩ := Checked.bind_eq_ok.mp runs
      rw [fetched, Checked.ok_bind]
      dsimp only at following ⊢
      split at following
      · next skipped =>
          rw [if_pos skipped]
          exact ih widened following
      · next not_skipped =>
          rw [if_neg not_skipped]
          have same_input : inputAt? { allocation with used := wider } (inputs.get? output.name) =
              inputAt? allocation (inputs.get? output.name) := rfl
          rw [same_input]
          split at following
          · exact @ih _ _ _ (by exact widened) following
          · split at following
            · simp at following
            · next location _ below =>
                rw [if_neg (fun beyond => below (Nat.le_trans more beyond))]
                split at following
                · simp at following
                · next claimed =>
                    obtain ⟨taken, claimed_wider, still⟩ := widened.claim? claimed
                    rw [claimed_wider]
                    exact @ih _ _ _ (by exact still) following

theorem placeAll_widens {pairs : List Pair} :
    ∀ {allocation reached : Allocation} {wider : SlotSet}, Widened limit allocation.used wider →
      placeAll allocation pairs = (reached, none) →
      ∃ used, placeAll { allocation with used := wider } pairs =
        ({ reached with used := used }, none) := by
  induction pairs with
  | nil =>
      intro allocation reached wider widened runs
      obtain rfl : allocation = reached := by simpa [placeAll] using runs
      exact ⟨wider, rfl⟩
  | cons pair pairs ih =>
      intro allocation reached wider widened runs
      rw [placeAll] at runs ⊢
      split at runs
      · cases runs
      · next found =>
          rw [widened.findFree? found]
          exact @ih _ _ _ (by exact widened.or _) runs

/-- An allocation that does not fail places everything where it has been with more slots. -/
theorem allocate_widens (more : limit ≤ larger) {producer : Shader} {consumer : Option Shader}
    {allocation : Allocation}
    (runs : allocate captured limit producer consumer = .ok (allocation, none)) :
    ∃ used, allocate captured larger producer consumer =
      .ok ({ allocation with used := used }, none) := by
  obtain ⟨opposite, outputs, claimed, failure, listed, found, claims, following⟩ :=
    allocate_eq_ok runs
  split at following
  · next failed =>
      rw [following.2] at failed
      cases failed
  · next fine =>
      obtain rfl : failure = none := by simpa using fine
      obtain ⟨used, claims_wider, widened⟩ :=
        claimAll_widens more (Widened.reservedAbove more) claims
      obtain ⟨used_after, places⟩ := placeAll_widens widened following
      refine ⟨used_after, (allocate_eq listed found claims_wider).trans ?_⟩
      rw [if_neg fine, places]

theorem checkOutputs_widens {limits raised : Limits} (at_most : limits.AtMost raised)
    {shader : Shader} (grants : (checkOutputs limits shader).Grants ()) :
    (checkOutputs raised shader).Grants () := by
  obtain ⟨used, counts, following⟩ := Judged.grants_bind.mp grants
  refine Judged.grants_bind.mpr ⟨used, counts, ?_⟩
  dsimp only at following ⊢
  split at following
  · exact absurd following Judged.grants_reject
  · next fits =>
      have more := at_most.outputComponents shader.stage
      rw [if_neg (by omega)]
      exact following

theorem checkInputs_widens {limits raised : Limits} (at_most : limits.AtMost raised)
    {shader : Shader} (grants : (checkInputs limits shader).Grants ()) :
    (checkInputs raised shader).Grants () := by
  obtain ⟨used, counts, following⟩ := Judged.grants_bind.mp grants
  refine Judged.grants_bind.mpr ⟨used, counts, ?_⟩
  dsimp only at following ⊢
  split at following
  · exact absurd following Judged.grants_reject
  · next fits =>
      have more := at_most.inputComponents shader.stage
      rw [if_neg (by omega)]
      exact following

end Varying

/-! ## Captures, blocks and uniforms -/

namespace Capture

variable {mode : FeedbackMode}

theorem place_widens (at_most : limits.AtMost raised) {position offset : Nat} {capture : Capture}
    {captured : Captured} {entry : CapturedVarying}
    (placed : place mode limits position offset capture captured = .ok entry) :
    place mode raised position offset capture captured = .ok entry := by
  have interleaved := at_most.interleavedComponents
  have separate := at_most.separateComponents
  cases mode with
  | interleaved =>
      simp only [place] at placed ⊢
      split at placed
      · cases placed
      · rw [if_neg (by omega)]
        exact placed
  | separate =>
      simp only [place] at placed ⊢
      split at placed
      · cases placed
      · rw [if_neg (by omega)]
        exact placed

theorem placeFrom_widens (at_most : limits.AtMost raised) {captures : List Capture} :
    ∀ {position offset : Nat} {entries : List CapturedVarying},
      placeFrom mode limits position offset captures = .ok entries →
      placeFrom mode raised position offset captures = .ok entries := by
  induction captures with
  | nil => exact fun placed => placed
  | cons capture captures ih =>
      intro position offset entries placed
      obtain ⟨captured, entry, later, resolved, here, rest, rfl⟩ := placeFrom_cons_eq_ok placed
      rw [placeFrom, resolved]
      exact except_bind_eq_ok.mpr ⟨entry, place_widens at_most here,
        except_bind_eq_ok.mpr ⟨later, ih rest, rfl⟩⟩

theorem placeAll_widens (at_most : limits.AtMost raised) {captures : List Capture}
    {entries : List CapturedVarying} (placed : placeAll mode limits captures = .ok entries) :
    placeAll mode raised captures = .ok entries := by
  have more := at_most.feedbackBuffers
  rw [placeAll] at placed ⊢
  split at placed
  · cases placed
  · next few =>
      rw [if_neg]
      · exact placeFrom_widens at_most placed
      · simp only [Bool.and_eq_true, decide_eq_true_eq] at few ⊢
        exact fun fits => few (fits.imp_right fun many => by omega)

end Capture

namespace UniformBlock

theorem layoutAll_widens {limit larger : Nat} (more : limit ≤ larger) {blocks : List UniformBlock} :
    ∀ {result : List UniformBlock}, layoutAll limit blocks = .ok result →
      layoutAll larger blocks = .ok result := by
  induction blocks with
  | nil => exact fun runs => runs
  | cons block blocks ih =>
      intro result runs
      rw [layoutAll] at runs ⊢
      split at runs
      · cases runs
      · next fits =>
          rw [if_neg (by omega)]
          obtain ⟨later, lays, finish⟩ := except_bind_eq_ok.mp runs
          exact except_bind_eq_ok.mpr ⟨later, ih lays, finish⟩

theorem ofUnits_widens {limit larger : Nat} (more : limit ≤ larger) {units : List Shader}
    {result : List UniformBlock} (runs : ofUnits limit units = .ok result) :
    ofUnits larger units = .ok result := by
  obtain ⟨table, enters, lays⟩ := except_bind_eq_ok.mp runs
  exact except_bind_eq_ok.mpr ⟨table, enters, layoutAll_widens more lays⟩

end UniformBlock

namespace Merge

/-- What the units of a stage are merged to does not depend on limits. -/
theorem link_widens (at_most : limits.AtMost raised) {stage : Stage} {version : Nat}
    {units : List TranslationUnit} {result : Shader}
    (grants : (link stage version limits units).Grants result) :
    (link stage version raised units).Grants result := by
  obtain ⟨resolutions, resolves, following⟩ := Judged.grants_bind.mp grants
  obtain ⟨_, blocks_match, following⟩ := Judged.grants_bind.mp following
  refine Judged.grants_bind.mpr ⟨resolutions, resolves,
    Judged.grants_bind.mpr ⟨(), blocks_match, ?_⟩⟩
  dsimp only at following ⊢
  split at following
  · next blocks tabled =>
      rw [UniformBlock.ofUnits_widens at_most.uniformBlockSize tabled]
      exact following
  · obtain ⟨_, rejected, -⟩ := Judged.grants_bind.mp following
    exact absurd rejected Judged.grants_reject

end Merge

namespace Uniform

def OnlyWarnings (entries : List LogEntry) : Prop := ∀ entry ∈ entries, entry.severity ≠ .error

theorem onlyWarnings_append {entries more : List LogEntry} :
    OnlyWarnings (entries ++ more) ↔ OnlyWarnings entries ∧ OnlyWarnings more :=
  List.forall_mem_append

theorem onlyWarnings_flatMap {Item : Type} {items : List Item} {entries : Item → List LogEntry} :
    OnlyWarnings (items.flatMap entries) ↔ ∀ item ∈ items, OnlyWarnings (entries item) := by
  simp only [OnlyWarnings, List.mem_flatMap]
  exact ⟨fun all item listed entry inside => all entry ⟨item, listed, inside⟩,
    fun all entry ⟨item, listed, inside⟩ => all item listed entry inside⟩

theorem onlyWarnings_error {exceeded : Bool} {cause : LinkError} :
    OnlyWarnings (overLimit exceeded .error cause) ↔ exceeded = false := by
  cases exceeded <;> simp [OnlyWarnings, overLimit]

theorem onlyWarnings_warning {exceeded : Bool} {cause : LinkError} :
    OnlyWarnings (overLimit exceeded .warning cause) := by
  cases exceeded <;> simp [OnlyWarnings, overLimit]

variable {options others : Options}

theorem stageOverruns_widens (options_raised : options.Raised others) {stage : Stage}
    {usage : StageUsage} (fine : OnlyWarnings (stageOverruns options stage usage)) :
    OnlyWarnings (stageOverruns others stage usage) := by
  have samplers := options_raised.limits.textureUnits stage
  have components := options_raised.limits.uniformComponents stage
  have combined := options_raised.limits.combinedUniformComponents stage
  simp only [stageOverruns, onlyWarnings_append, onlyWarnings_error,
    decide_eq_false_iff_not] at fine ⊢
  refine ⟨by omega, ?_⟩
  split
  · exact onlyWarnings_append.mpr ⟨onlyWarnings_warning, onlyWarnings_warning⟩
  · next strict =>
      have was_strict : ¬ options.lenientUniforms = true :=
        fun lenient => strict (options_raised.lenientUniforms lenient)
      simp only [if_neg was_strict, onlyWarnings_append, onlyWarnings_error,
        decide_eq_false_iff_not]
        at fine ⊢
      omega

theorem blockOverruns_widens (at_most : limits.AtMost raised)
    {positions : PerStage (List (Option Nat))}
    (fine : OnlyWarnings (blockOverruns limits positions)) :
    OnlyWarnings (blockOverruns raised positions) := by
  have combined := at_most.combinedUniformBlocks
  simp only [blockOverruns, onlyWarnings_append, onlyWarnings_flatMap, onlyWarnings_error,
    decide_eq_false_iff_not] at fine ⊢
  refine ⟨by omega, fun stage listed => ?_⟩
  have more := at_most.uniformBlocks stage
  have here := fine.2 stage listed
  omega

/-- Where nothing is an error, nothing is with greater limits. -/
theorem overruns_widens (options_raised : options.Raised others) {present : List Stage}
    {usages : PerStage StageUsage} {positions : PerStage (List (Option Nat))}
    (fine : OnlyWarnings (overruns options present usages positions)) :
    OnlyWarnings (overruns others present usages positions) := by
  simp only [overruns, onlyWarnings_append, onlyWarnings_flatMap] at fine ⊢
  exact ⟨fun stage listed => stageOverruns_widens options_raised (fine.1 stage listed),
    blockOverruns_widens options_raised.limits fine.2⟩

end Uniform
end StageLink
