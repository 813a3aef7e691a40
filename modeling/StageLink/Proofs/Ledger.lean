import StageLink.Slot
import Mathlib.Logic.Function.Basic
import Mathlib.Order.Bounds.Basic

/-!
# Ledgers of slots

An allocation goes with a ledger that says which variable has which span of slots, a variable being
known by its position or by its name.  The spans of different keys have no slot in common because
every span that has been entered is taken in the set of used slots, and the next one has to be free
there.  Where the set of used slots tallies with some spans, nothing but these and the limit is in
the way of the next one, so that the search finds the lowest span that is vacant.
-/

namespace StageLink

/-- A number of consecutive slots. -/
structure Span where
  base : Nat
  count : Nat
  deriving DecidableEq

namespace Span

/-- Whether a slot belongs to a span. -/
def Covers (span : Span) (slot : Nat) : Prop := span.base ≤ slot ∧ slot < span.base + span.count

/-- Two spans without a common slot. -/
def Apart (first second : Span) : Prop := ∀ slot, first.Covers slot → ¬ second.Covers slot

theorem Apart.symm {first second : Span} (apart : first.Apart second) : second.Apart first :=
  fun slot in_second in_first => apart slot in_first in_second

/-- A span that ends before another begins is apart from it. -/
theorem apart_of_le {first second : Span} (before : first.base + first.count ≤ second.base) :
    first.Apart second := by
  rintro slot ⟨-, below⟩ ⟨above, -⟩
  omega

/-- All slots of a span are below the limit and in the word, and none of them belongs to one of some
other spans. -/
structure Vacant (limit : Nat) (spans : Set Span) (span : Span) : Prop where
  inside : ∀ slot, span.Covers slot → slot < min limit 32
  apart : ∀ other ∈ spans, other.Apart span

end Span

namespace SlotSet

def Holds (used : SlotSet) (span : Span) : Prop :=
  ∀ slot, span.Covers slot → used.getLsbD slot = true

theorem getLsbD_reservedAbove (limit slot : Nat) :
    (reservedAbove limit).getLsbD slot = (decide (slot < 32) && decide (limit ≤ slot)) := by
  simp only [reservedAbove, BitVec.getLsbD_not, getLsbD_lowest]
  by_cases inside : slot < 32
  · by_cases above : limit ≤ slot
    · simp [inside, above]
    · have below : slot < limit := Nat.lt_of_not_le above
      simp [inside, above, below]
  · simp [inside]

theorem isFree_iff {used : SlotSet} {base count : Nat} :
    used.isFree base count = true ↔
      ∀ slot, slot < 32 → Span.Covers ⟨base, count⟩ slot → used.getLsbD slot = false := by
  simp only [isFree, decide_eq_true_eq]
  constructor
  · intro free slot inside covers
    have absent : (used &&& span base count).getLsbD slot = false := by rw [free]; simp
    rw [BitVec.getLsbD_and, getLsbD_span] at absent
    simpa [inside, covers.1, covers.2] using absent
  · intro free
    apply BitVec.eq_of_getLsbD_eq
    intro slot inside
    rw [BitVec.getLsbD_and, getLsbD_span]
    by_cases covers : Span.Covers ⟨base, count⟩ slot
    · simp [free slot inside covers]
    · by_cases above : base ≤ slot
      · have beyond : ¬ slot < base + count := fun below => covers ⟨above, below⟩
        simp [beyond]
      · simp [above]

/-- A span within the word is taken once it has been added. -/
theorem holds_span {used : SlotSet} {base count : Nat} (fits : base + count ≤ 32) :
    (used ||| span base count).Holds ⟨base, count⟩ := by
  rintro slot ⟨above, below⟩
  have inside : slot < 32 := Nat.lt_of_lt_of_le below fits
  simp only at above below
  simp [getLsbD_span, inside, above, below]

/-- What a successful claim of a span with slots says. -/
theorem claim?_eq_some {used next : SlotSet} {base count : Nat}
    (claimed : used.claim? base count = some next) :
    (count = 0 ∧ next = used) ∨
      (0 < count ∧ base + count ≤ 32 ∧ used.isFree base count = true ∧
        next = used ||| span base count) := by
  unfold claim? at claimed
  split at claimed
  · next none_asked => exact .inl ⟨none_asked, (Option.some.inj claimed).symm⟩
  · next some_asked =>
      split at claimed
      · simp at claimed
      · next fits =>
          split at claimed
          · next free =>
              exact .inr ⟨Nat.pos_of_ne_zero some_asked, Nat.le_of_not_lt fits, free,
                (Option.some.inj claimed).symm⟩
          · simp at claimed

/-- The base that is found for a number of slots is the lowest at which so many are free. -/
theorem findFree?_eq_some_iff {used : SlotSet} {base count : Nat} :
    used.findFree? count = some base ↔
      0 < count ∧ IsLeast {base | base + count ≤ 32 ∧ used.isFree base count = true} base := by
  unfold findFree?
  split
  · next senseless =>
      simp only [Bool.or_eq_true, decide_eq_true_eq] at senseless
      constructor
      · intro found
        cases found
      · rintro ⟨some_asked, ⟨fits, -⟩, -⟩
        omega
  · next sensible =>
      simp only [Bool.or_eq_true, decide_eq_true_eq, not_or, Nat.not_lt] at sensible
      rw [List.find?_range_eq_some, List.mem_range]
      constructor
      · rintro ⟨free, inside, lower⟩
        refine ⟨Nat.pos_of_ne_zero sensible.1, ⟨by omega, free⟩, fun other ⟨_, other_free⟩ => ?_⟩
        by_contra below
        have taken := lower other (Nat.lt_of_not_le below)
        rw [other_free] at taken
        cases taken
      · rintro ⟨-, ⟨fits, free⟩, least⟩
        refine ⟨free, by omega, fun other below => ?_⟩
        by_contra other_free
        have other_is_free : used.isFree other count = true := by simpa using other_free
        exact absurd (least ⟨by omega, other_is_free⟩) (Nat.not_le_of_lt below)

/-- A span that has been found has slots, fits and is free. -/
theorem findFree?_eq_some {used : SlotSet} {base count : Nat}
    (found : used.findFree? count = some base) :
    0 < count ∧ base + count ≤ 32 ∧ used.isFree base count = true := by
  obtain ⟨some_asked, ⟨fits, free⟩, -⟩ := findFree?_eq_some_iff.mp found
  exact ⟨some_asked, fits, free⟩

/-- A slot is taken exactly if it is at or above the limit or belongs to one of some spans. -/
def Tallies (limit : Nat) (used : SlotSet) (spans : Set Span) : Prop :=
  ∀ slot < 32, used.getLsbD slot = true ↔ limit ≤ slot ∨ ∃ span ∈ spans, span.Covers slot

namespace Tallies

variable {limit : Nat} {used : SlotSet} {spans : Set Span} {base count : Nat}

/-- Without spans the slots below the limit are free. -/
theorem start (limit : Nat) : Tallies limit (reservedAbove limit) ∅ := by
  intro slot inside
  rw [getLsbD_reservedAbove]
  simp [inside]

/-- Taking the slots of a span adds it. -/
theorem enter (tallies : Tallies limit used spans) (base count : Nat) :
    Tallies limit (used ||| span base count) (insert ⟨base, count⟩ spans) := by
  intro slot inside
  have in_span : (span base count).getLsbD slot = true ↔ Span.Covers ⟨base, count⟩ slot := by
    rw [getLsbD_span]
    simp [inside, Span.Covers]
  rw [BitVec.getLsbD_or, Bool.or_eq_true, tallies slot inside, in_span, or_assoc]
  simp only [Set.mem_insert_iff, exists_eq_or_imp]
  exact or_congr_right or_comm

/-- A claim that is granted adds the span. -/
theorem claim {next : SlotSet} (tallies : Tallies limit used spans)
    (claimed : used.claim? base count = some next) :
    Tallies limit next (insert ⟨base, count⟩ spans) := by
  rcases claim?_eq_some claimed with ⟨rfl, rfl⟩ | ⟨-, -, -, rfl⟩
  · have nothing : next ||| span base 0 = next := by
      refine BitVec.eq_of_getLsbD_eq fun slot inside => ?_
      rw [BitVec.getLsbD_or, getLsbD_span]
      by_cases above : base ≤ slot <;> simp [above]
    have entered := tallies.enter base 0
    rwa [nothing] at entered
  · exact tallies.enter base count

theorem spare (tallies : Tallies limit used spans) (reserved : Bool) :
    Tallies limit (if reserved then used ||| 1 else used)
      (spans ∪ {span | reserved = true ∧ span = ⟨0, 1⟩}) := by
  cases reserved with
  | false => simpa using tallies
  | true =>
      have lowest : (1 : SlotSet) = span 0 1 := by decide
      have one_more : spans ∪ {span | true = true ∧ span = ⟨0, 1⟩} = insert ⟨0, 1⟩ spans := by
        ext other
        simp [or_comm]
      rw [one_more, if_pos rfl, lowest]
      exact tallies.enter 0 1

theorem isFree_iff (tallies : Tallies limit used spans) (some_asked : 0 < count) :
    base + count ≤ 32 ∧ used.isFree base count = true ↔ Span.Vacant limit spans ⟨base, count⟩ := by
  constructor
  · rintro ⟨fits, free⟩
    have known : ∀ slot, Span.Covers ⟨base, count⟩ slot →
        slot < 32 ∧ slot < limit ∧ ∀ span ∈ spans, ¬ span.Covers slot := by
      intro slot covers
      have inside : slot < 32 := Nat.lt_of_lt_of_le covers.2 fits
      have clear := SlotSet.isFree_iff.mp free slot inside covers
      have not_taken := (tallies slot inside).not.mp (by rw [clear]; decide)
      simp only [not_or, Nat.not_le, not_exists, not_and] at not_taken
      exact ⟨inside, not_taken⟩
    exact ⟨fun slot covers => Nat.lt_min.mpr ⟨(known slot covers).2.1, (known slot covers).1⟩,
      fun other listed slot in_other covers => (known slot covers).2.2 other listed in_other⟩
  · rintro ⟨inside, apart⟩
    have last_covered : Span.Covers ⟨base, count⟩ (base + count - 1) := by
      constructor <;> simp only <;> omega
    have last_inside := inside _ last_covered
    refine ⟨by omega, SlotSet.isFree_iff.mpr fun slot in_word covers => ?_⟩
    by_contra taken
    rcases (tallies slot in_word).mp (Bool.eq_true_of_not_eq_false taken) with
      above | ⟨other, listed, in_other⟩
    · exact absurd (inside slot covers) (by omega)
    · exact apart other listed slot in_other covers

/-- What is found for a number of slots is the base of the lowest vacant span. -/
theorem findFree?_eq_some_iff (tallies : Tallies limit used spans) :
    used.findFree? count = some base ↔
      0 < count ∧ IsLeast {base | Span.Vacant limit spans ⟨base, count⟩} base := by
  rw [SlotSet.findFree?_eq_some_iff]
  refine and_congr_right fun some_asked => ?_
  have same : {base | base + count ≤ 32 ∧ used.isFree base count = true} =
      {base | Span.Vacant limit spans ⟨base, count⟩} :=
    Set.ext fun base => tallies.isFree_iff some_asked
  rw [same]

end Tallies
end SlotSet

def among {Key Entry : Type} [DecidableEq Key] (keys : List Key) (entries : Key → Option Entry)
    (key : Key) : Option Entry :=
  if key ∈ keys then entries key else none

@[simp]
theorem among_nil {Key Entry : Type} [DecidableEq Key] (entries : Key → Option Entry) :
    among [] entries = fun _ => none := by
  funext key
  simp [among]

theorem among_concat {Key Entry : Type} [DecidableEq Key] (keys : List Key) (key : Key)
    (entries : Key → Option Entry) :
    among (keys ++ [key]) entries = Function.update (among keys entries) key (entries key) := by
  funext other
  by_cases same : other = key
  · simp [among, same]
  · simp [among, same]

/-- A ledger gives spans to some keys.  All of them are taken in the set of used slots, those of
different keys are apart, and those with slots end at or before the limit, from which on every slot
counts as used. -/
structure Ledger {Key : Type} (limit : Nat) (used : SlotSet) (placed : Key → Option Span) :
    Prop where
  taken : ∀ {key span}, placed key = some span → used.Holds span
  apart : ∀ {key other span another}, key ≠ other → placed key = some span →
    placed other = some another → span.Apart another
  within : ∀ {key span}, placed key = some span → 0 < span.count → span.base + span.count ≤ limit
  beyond : ∀ {slot}, slot < 32 → limit ≤ slot → used.getLsbD slot = true

namespace Ledger

variable {Key : Type} {limit : Nat} {used : SlotSet} {placed : Key → Option Span} {key : Key}
  {base count : Nat}

/-- The ledger without spans. -/
theorem start (limit : Nat) :
    Ledger limit (SlotSet.reservedAbove limit) fun _ : Key => none where
  taken := by simp
  apart := by simp
  within := by simp
  beyond := by
    intro slot inside above
    simp [SlotSet.getLsbD_reservedAbove, inside, above]

variable [DecidableEq Key]

/-- What a ledger says after an entry. -/
theorem entered {new span : Span} {other : Key}
    (found : Function.update placed key (some new) other = some span) :
    (other = key ∧ span = new) ∨ (other ≠ key ∧ placed other = some span) := by
  by_cases same : other = key
  · subst same
    rw [Function.update_self] at found
    exact .inl ⟨rfl, (Option.some.inj found).symm⟩
  · rw [Function.update_of_ne same] at found
    exact .inr ⟨same, found⟩

theorem enter {next : SlotSet} {new : Span} (ledger : Ledger limit used placed)
    (keeps : ∀ slot, used.getLsbD slot = true → next.getLsbD slot = true)
    (held : next.Holds new)
    (clear : ∀ {other span}, placed other = some span → span.Apart new)
    (ends : 0 < new.count → new.base + new.count ≤ limit) :
    Ledger limit next (Function.update placed key (some new)) where
  taken := by
    intro other span found
    rcases entered found with ⟨-, rfl⟩ | ⟨-, before⟩
    · exact held
    · exact fun slot covers => keeps slot (ledger.taken before slot covers)
  apart := by
    intro first second span another differ found found_another
    rcases entered found with ⟨first_new, rfl⟩ | ⟨-, before⟩
    · rcases entered found_another with ⟨second_new, rfl⟩ | ⟨-, before_another⟩
      · exact absurd (first_new.trans second_new.symm) differ
      · exact (clear before_another).symm
    · rcases entered found_another with ⟨-, rfl⟩ | ⟨-, before_another⟩
      · exact clear before
      · exact ledger.apart differ before before_another
  within := by
    intro other span found has_slots
    rcases entered found with ⟨-, rfl⟩ | ⟨-, before⟩
    · exact ends has_slots
    · exact ledger.within before has_slots
  beyond := fun inside above => keeps _ (ledger.beyond inside above)

theorem enter_free (ledger : Ledger limit used placed) (some_asked : 0 < count)
    (fits : base + count ≤ 32) (free : used.isFree base count = true) :
    Ledger limit (used ||| SlotSet.span base count)
      (Function.update placed key (some ⟨base, count⟩)) := by
  have clear := SlotSet.isFree_iff.mp free
  refine ledger.enter (fun slot taken => by simp [taken])
    (SlotSet.holds_span fits) ?_ ?_
  · intro other span found slot in_old in_new
    have inside : slot < 32 := Nat.lt_of_lt_of_le in_new.2 fits
    have taken := ledger.taken found slot in_old
    rw [clear slot inside in_new] at taken
    cases taken
  · intro _
    by_contra outside
    -- the last slot of the span would be one that counts as used from the start
    have last_covered : Span.Covers ⟨base, count⟩ (base + count - 1) := by
      constructor <;> simp only <;> omega
    have last_inside : base + count - 1 < 32 := by omega
    have taken := ledger.beyond last_inside (by simp only at outside; omega)
    rw [clear _ last_inside last_covered] at taken
    cases taken

/-- A span without slots can always be entered. -/
theorem enter_empty (ledger : Ledger limit used placed) :
    Ledger limit used (Function.update placed key (some ⟨base, 0⟩)) := by
  have covers_nothing : ∀ slot, ¬ Span.Covers ⟨base, 0⟩ slot := by
    rintro slot ⟨above, below⟩
    simp only at above below
    omega
  refine ledger.enter (fun slot taken => taken)
    (fun slot covers => absurd covers (covers_nothing slot)) ?_ ?_
  · exact fun _ slot _ in_new => covers_nothing slot in_new
  · exact fun has_slots => absurd has_slots (Nat.lt_irrefl 0)

/-- A claim that is granted enters the span. -/
theorem claim {next : SlotSet} (key : Key) (ledger : Ledger limit used placed)
    (claimed : used.claim? base count = some next) :
    Ledger limit next (Function.update placed key (some ⟨base, count⟩)) := by
  rcases SlotSet.claim?_eq_some claimed with ⟨rfl, rfl⟩ | ⟨some_asked, fits, free, rfl⟩
  · exact ledger.enter_empty
  · exact ledger.enter_free some_asked fits free

theorem place (key : Key) (ledger : Ledger limit used placed)
    (found : used.findFree? count = some base) :
    Ledger limit (used ||| SlotSet.span base count)
      (Function.update placed key (some ⟨base, count⟩)) := by
  obtain ⟨some_asked, fits, free⟩ := SlotSet.findFree?_eq_some found
  exact ledger.enter_free some_asked fits free

end Ledger
end StageLink
