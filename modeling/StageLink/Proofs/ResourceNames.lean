import StageLink.Capture.Name
import Mathlib.Data.List.TakeWhile

/-!
# Resource names taken apart

Before its last bracket a text has a run of digits, and before that a character that is no digit,
unless there are digits only.  What becomes of the text depends on this character: if it takes
several bytes the text is cut inside it, if it is an opening bracket the digits may be an index, and
otherwise the text names a variable as a whole.  So a text is taken apart exactly if it is a base
with an index in brackets, and every index can be written so: `ResourceName.parse_exact`.
-/

namespace StageLink

namespace Digits

/-- The decimal form of a number consists of digits that stand for it. -/
theorem value_toDigits (number : Nat) : value (Nat.toDigits 10 number) = number :=
  Nat.ofDigitChars_toDigits (by decide) (by decide)

theorem areDigits_iff {chars : List Char} :
    areDigits chars = true ↔ chars ≠ [] ∧ ∀ digit ∈ chars, digit.isDigit = true := by
  simp [areDigits]

theorem areDigits_toDigits (number : Nat) : areDigits (Nat.toDigits 10 number) = true := by
  apply areDigits_iff.mpr
  exact ⟨List.ne_nil_of_length_pos Nat.length_toDigits_pos,
    fun digit listed => Nat.isDigit_of_mem_toDigits (by decide) (by decide) listed⟩

/-- A digit takes one byte. -/
theorem utf8Size_of_isDigit {digit : Char} (is_digit : digit.isDigit = true) :
    digit.utf8Size = 1 := by
  simp only [Char.isDigit, Bool.and_eq_true, decide_eq_true_eq] at is_digit
  simp only [Char.utf8Size, UInt32.le_iff_toNat_le] at *
  grind

end Digits

namespace ResourceName

/-- The text is the base and then, in brackets, the digits of the index. -/
def Indexed (name base : String) (index : Nat) : Prop :=
  ∃ digits, Digits.areDigits digits = true ∧ Digits.value digits = index ∧ index < UInt32.size ∧
    name = base ++ "[" ++ String.ofList digits ++ "]"

/-- In front of the digits before the last bracket there is a character of several bytes. -/
def SplitsCharacter (name : String) : Prop :=
  ∃ front last digits, 1 < last.utf8Size ∧ (∀ digit ∈ digits, digit.isDigit = true) ∧
    name.toList = front ++ last :: digits ++ [']']

/-! ## What a text looks like -/

/-- A text without a closing bracket at its end. -/
theorem parse_of_no_bracket {name : String} (no_bracket : ∀ inner, name.toList ≠ inner ++ [']']) :
    parse name = .ok ⟨name, none⟩ := by
  unfold parse
  split
  · next inner reversed =>
      have turned := congrArg List.reverse reversed
      rw [List.reverse_reverse, List.reverse_cons] at turned
      exact absurd turned (no_bracket inner.reverse)
  · rfl

/-- What stands before a closing bracket is taken apart from the end on. -/
theorem parse_of_bracket {name : String} {inner : List Char}
    (shape : name.toList = inner ++ [']']) :
    parse name = parseReversed name inner.reverse := by
  rw [parse, shape, List.reverse_concat]
  rfl

/-- Digits and a closing bracket. -/
theorem parse_of_digits {name : String} {digits : List Char}
    (all_digits : ∀ digit ∈ digits, digit.isDigit = true) (shape : name.toList = digits ++ [']']) :
    parse name = .ok ⟨name, none⟩ := by
  have nothing_left : digits.reverse.dropWhile Char.isDigit = [] :=
    List.dropWhile_eq_nil_iff.mpr fun digit listed => all_digits digit (List.mem_reverse.mp listed)
  rw [parse_of_bracket shape, parseReversed, nothing_left]

theorem parse_of_last {name : String} {front digits : List Char} {last : Char}
    (no_digit : last.isDigit = false) (all_digits : ∀ digit ∈ digits, digit.isDigit = true)
    (shape : name.toList = front ++ last :: digits ++ [']']) :
    parse name =
      if 1 < last.utf8Size then .error (.splitCharacter name)
      else if last = '[' ∧ digits ≠ [] ∧ Digits.value digits ≤ greatestIndex then
        .ok ⟨String.ofList front, some (Digits.value digits)⟩
      else .ok ⟨name, none⟩ := by
  have reversed :
      (front ++ last :: digits).reverse = digits.reverse ++ last :: front.reverse := by
    simp
  have turned : ∀ digit ∈ digits.reverse, digit.isDigit = true :=
    fun digit listed => all_digits digit (List.mem_reverse.mp listed)
  have run : (digits.reverse ++ last :: front.reverse).takeWhile Char.isDigit = digits.reverse := by
    rw [List.takeWhile_append_of_pos turned, List.takeWhile_cons_of_neg (by simp [no_digit]),
      List.append_nil]
  have left : (digits.reverse ++ last :: front.reverse).dropWhile Char.isDigit = last ::
      front.reverse := by
    rw [List.dropWhile_append_of_pos turned, List.dropWhile_cons_of_neg (by simp [no_digit])]
  rw [parse_of_bracket shape, reversed, parseReversed, run, left]
  simp [and_assoc]

/-- Some characters are digits only, or there is a last one that is no digit. -/
theorem digits_or_last (chars : List Char) : (∀ digit ∈ chars, digit.isDigit = true) ∨
    ∃ front last digits, last.isDigit = false ∧ (∀ digit ∈ digits, digit.isDigit = true) ∧
      chars = front ++ last :: digits := by
  induction chars with
  | nil => exact .inl fun digit listed => nomatch listed
  | cons first chars ih =>
      rcases ih with all_digits | ⟨front, last, digits, no_digit, all_digits, rfl⟩
      · cases is_digit : first.isDigit with
        | true => exact .inl (List.forall_mem_cons.mpr ⟨is_digit, all_digits⟩)
        | false => exact .inr ⟨[], first, chars, is_digit, all_digits, rfl⟩
      · exact .inr ⟨first :: front, last, digits, no_digit, all_digits, rfl⟩

/-! ## What becomes of a text -/

section Outcomes

variable {name base : String} {index : Nat}

theorem parse_of_splitsCharacter (splits : SplitsCharacter name) :
    parse name = .error (.splitCharacter name) := by
  obtain ⟨front, last, digits, wide, all_digits, shape⟩ := splits
  have no_digit : last.isDigit = false := by
    apply Bool.eq_false_iff.mpr
    intro is_digit
    rw [Digits.utf8Size_of_isDigit is_digit] at wide
    exact Nat.lt_irrefl 1 wide
  rw [parse_of_last no_digit all_digits shape, if_pos wide]

theorem parse_of_indexed (indexed : Indexed name base index) :
    parse name = .ok ⟨base, some index⟩ := by
  obtain ⟨digits, are_digits, rfl, small, same⟩ := indexed
  obtain ⟨some_digit, all_digits⟩ := Digits.areDigits_iff.mp are_digits
  have shape : name.toList = base.toList ++ '[' :: digits ++ [']'] := by
    rw [same]
    simp
  have narrow : ¬ 1 < Char.utf8Size '[' := by decide
  have bounded : Digits.value digits ≤ greatestIndex := Nat.le_sub_one_of_lt small
  rw [parse_of_last (by decide) all_digits shape, if_neg narrow, if_pos ⟨rfl, some_digit, bounded⟩,
    String.ofList_toList]

/-- A text is cut inside a character, or it has an index, or it names a variable as a whole. -/
theorem parse_cases (name : String) :
    SplitsCharacter name ∨ (∃ base index, Indexed name base index) ∨
    parse name = .ok ⟨name, none⟩ := by
  by_cases bracket : ∃ inner, name.toList = inner ++ [']']
  · obtain ⟨inner, shape⟩ := bracket
    rcases digits_or_last inner with all_digits | ⟨front, last, digits, no_digit, all_digits, rfl⟩
    · exact .inr (.inr (parse_of_digits all_digits shape))
    · have outcome := parse_of_last no_digit all_digits shape
      split at outcome
      · next wide => exact .inl ⟨front, last, digits, wide, all_digits, shape⟩
      · split at outcome
        · next found =>
            obtain ⟨rfl, some_digit, small⟩ := found
            have bounded : Digits.value digits < UInt32.size := Nat.lt_of_le_pred (by decide) small
            have same : name = String.ofList front ++ "[" ++ String.ofList digits ++ "]" := by
              rw [← String.toList_inj, shape]
              simp
            exact .inr (.inl ⟨String.ofList front, Digits.value digits, digits,
              Digits.areDigits_iff.mpr ⟨some_digit, all_digits⟩, rfl, bounded, same⟩)
        · exact .inr (.inr outcome)
  · exact .inr (.inr (parse_of_no_bracket (not_exists.mp bracket)))

theorem indexed_of_parse (parsed : parse name = .ok ⟨base, some index⟩) :
    Indexed name base index := by
  rcases parse_cases name with splits | ⟨base', index', indexed⟩ | whole
  · cases (parse_of_splitsCharacter splits).symm.trans parsed
  · cases (parse_of_indexed indexed).symm.trans parsed
    exact indexed
  · cases whole.symm.trans parsed

theorem splitsCharacter_of_parse (parsed : parse name = .error (.splitCharacter name)) :
    SplitsCharacter name := by
  rcases parse_cases name with splits | ⟨base, index, indexed⟩ | whole
  · exact splits
  · cases (parse_of_indexed indexed).symm.trans parsed
  · cases whole.symm.trans parsed

/-- The decimal form of an index in brackets is an index. -/
theorem indexed_decimal (base : String) (index : UInt32) :
    Indexed (base ++ "[" ++ toString index.toNat ++ "]") base index.toNat := by
  refine ⟨Nat.toDigits 10 index.toNat, Digits.areDigits_toDigits _, Digits.value_toDigits _,
    index.toNat_lt_size, ?_⟩
  rw [Nat.toString_eq_ofList_toDigits]

end Outcomes

/-- A text is taken apart exactly if it is a base with an index in brackets.  It names a variable as
a whole exactly if it is not, unless it is cut inside a character; and a name with an index, written
in decimals, is taken apart into these. -/
theorem parse_exact (name : String) :
    (∀ base index, parse name = .ok ⟨base, some index⟩ ↔ Indexed name base index) ∧
    (parse name = .ok ⟨name, none⟩ ↔
      ¬ SplitsCharacter name ∧ ∀ base index, ¬ Indexed name base index) ∧
    (parse name = .error (.splitCharacter name) ↔ SplitsCharacter name) ∧
    ∀ index : UInt32,
      parse (name ++ "[" ++ toString index.toNat ++ "]") = .ok ⟨name, some index.toNat⟩ := by
  refine ⟨fun base index => ⟨indexed_of_parse, parse_of_indexed⟩, ?_,
    ⟨splitsCharacter_of_parse, parse_of_splitsCharacter⟩,
    fun index => parse_of_indexed (indexed_decimal name index)⟩
  constructor
  · intro whole
    constructor
    · intro splits
      cases (parse_of_splitsCharacter splits).symm.trans whole
    · intro base index indexed
      cases (parse_of_indexed indexed).symm.trans whole
  · rintro ⟨uncut, unindexed⟩
    rcases parse_cases name with splits | ⟨base, index, indexed⟩ | whole
    · exact absurd splits uncut
    · exact absurd indexed (unindexed base index)
    · exact whole

/-- It is not so that every text can be taken apart. -/
theorem parse_cuts_character : ¬ ∀ name, ∃ answer, parse name = .ok answer := by
  intro answers
  obtain ⟨answer, given⟩ := answers "é]"
  have cut : parse "é]" = .error (.splitCharacter "é]") := by decide +kernel
  cases cut.symm.trans given

end ResourceName
end StageLink
