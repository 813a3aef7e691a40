import StageLink.Digits
import StageLink.Document

/-!
# JSON texts

The written form of documents.  Reading is two machines, each of which takes one step for every
piece of its input: the scanner turns characters into tokens, and the builder puts tokens together,
keeping the containers that are still open in a list.  Of two members with one name the last counts.
-/

namespace StageLink
namespace Json

/-! ## Literals -/

/-- The value of a hexadecimal digit. -/
def hexDigit? (char : Char) : Option Nat :=
  if '0' ≤ char ∧ char ≤ '9' then some (char.toNat - '0'.toNat)
  else if 'a' ≤ char ∧ char ≤ 'f' then some (char.toNat - 'a'.toNat + 10)
  else if 'A' ≤ char ∧ char ≤ 'F' then some (char.toNat - 'A'.toNat + 10)
  else none

/-- Decimal digits without needless zeros in front. -/
def isWhole (digits : List Char) : Bool :=
  Digits.areDigits digits && (digits.length = 1 || digits.head? != some '0')

/-- The value of an exponent, given what follows the letter. -/
def exponent? (chars : List Char) : Option Int :=
  match chars with
  | '+' :: digits => if Digits.areDigits digits then some (Digits.value digits) else none
  | '-' :: digits => if Digits.areDigits digits then some (-(Digits.value digits : Int)) else none
  | digits => if Digits.areDigits digits then some (Digits.value digits) else none

/-- The digits after a point and the exponent, if they are there. -/
def tail? (chars : List Char) : Option (List Char × Int) :=
  let isExponent := fun char => char = 'e' ∨ char = 'E'
  let mantissa := chars.takeWhile fun char => !isExponent char
  let power? :=
    match chars.dropWhile fun char => !isExponent char with
    | [] => some 0
    | _ :: power => exponent? power
  match mantissa, power? with
  | [], some power => some ([], power)
  | '.' :: fraction, some power =>
      if Digits.areDigits fraction then some (fraction, power) else none
  | _, _ => none

/-- The number that a literal without its sign stands for.  Only a literal without fraction and
exponent is an integer; a negative zero is none.  Numbers beyond double precision are refused. -/
def number? (negative : Bool) (chars : List Char) : Option Document := do
  let whole := chars.takeWhile Char.isDigit
  let rest := chars.dropWhile Char.isDigit
  guard (isWhole whole)
  let (fraction, power) ← tail? rest
  let numeral : Numeral := ⟨negative, Digits.value (whole ++ fraction), power - fraction.length⟩
  guard numeral.isInRange
  if rest.isEmpty && !(negative && numeral.digits = 0) then
    return .integer (if negative then -numeral.digits else numeral.digits)
  else
    return .numeral numeral

/-- The value of a literal. -/
def literal? (chars : List Char) : Option Document :=
  match chars with
  | ['n', 'u', 'l', 'l'] => some .null
  | ['t', 'r', 'u', 'e'] => some (.bool true)
  | ['f', 'a', 'l', 's', 'e'] => some (.bool false)
  | '-' :: digits => number? true digits
  | digits => number? false digits

/-! ## Scanning -/

/-- A piece of a text. -/
inductive Token where
  /-- A bracket, a colon or a comma. -/
  | sign (char : Char)
  | text (value : String)
  /-- A value that is neither a text nor a container. -/
  | literal (value : Document)

/-- Where the scanner stands.  Characters are kept with the newest first. -/
inductive Scanner where
  | between
  /-- In a literal. -/
  | bare (chars : List Char)
  /-- In a text. -/
  | quoted (chars : List Char)
  /-- Behind a backslash. -/
  | escape (chars : List Char)
  /-- In a character code, of which some digits have come, perhaps behind a leading surrogate. -/
  | code (chars : List Char) (leading : Option Nat) (count value : Nat)
  /-- Behind a leading surrogate. -/
  | surrogate (chars : List Char) (leading : Nat)
  /-- Behind a leading surrogate and a backslash. -/
  | surrogateEscape (chars : List Char) (leading : Nat)

/-- Whether a character is a token of its own. -/
def isSign (char : Char) : Bool := ['{', '}', '[', ']', ':', ','].contains char

/-- Whether a character may stand between tokens. -/
def isBlank (char : Char) : Bool := [' ', '\t', '\n', '\r'].contains char

/-- The character that a letter behind a backslash stands for. -/
def escaped? : Char → Option Char
  | '"' => some '"'
  | '\\' => some '\\'
  | '/' => some '/'
  | 'b' => some '\x08'
  | 'f' => some '\x0c'
  | 'n' => some '\n'
  | 'r' => some '\r'
  | 't' => some '\t'
  | _ => none

/-- What comes after a complete character code. -/
def endCode? (chars : List Char) (leading : Option Nat) (value : Nat) : Option Scanner :=
  match leading with
  | some high =>
      if 0xdc00 ≤ value ∧ value < 0xe000 then
        some (.quoted (Char.ofNat (0x10000 + (high - 0xd800) * 0x400 + (value - 0xdc00)) :: chars))
      else
        none
  | none =>
      if 0xd800 ≤ value ∧ value < 0xdc00 then some (.surrogate chars value)
      else if 0xdc00 ≤ value ∧ value < 0xe000 then none
      else some (.quoted (Char.ofNat value :: chars))

/-- Scan one character outside of a text. -/
def stepBetween? (tokens : List Token) (char : Char) : Option (List Token × Scanner) :=
  if isBlank char then some (tokens, .between)
  else if isSign char then some (.sign char :: tokens, .between)
  else if char = '"' then some (tokens, .quoted [])
  else some (tokens, .bare [char])

def endLiteral? (tokens : List Token) (chars : List Char) : Option (List Token) := do
  return .literal (← literal? chars.reverse) :: tokens

/-- Scan one character.  Tokens are kept with the newest first. -/
def step? : List Token × Scanner → Char → Option (List Token × Scanner)
  | (tokens, .between), char => stepBetween? tokens char
  | (tokens, .bare chars), char => do
      if isBlank char || isSign char || char = '"' then
        stepBetween? (← endLiteral? tokens chars) char
      else
        return (tokens, .bare (char :: chars))
  | (tokens, .quoted chars), char =>
      if char = '"' then some (.text (String.ofList chars.reverse) :: tokens, .between)
      else if char = '\\' then some (tokens, .escape chars)
      else if char < ' ' then none
      else some (tokens, .quoted (char :: chars))
  | (tokens, .escape chars), char =>
      if char = 'u' then some (tokens, .code chars none 0 0)
      else (escaped? char).map fun meant => (tokens, .quoted (meant :: chars))
  | (tokens, .code chars leading count value), char => do
      let value := 16 * value + (← hexDigit? char)
      if count = 3 then
        return (tokens, ← endCode? chars leading value)
      else
        return (tokens, .code chars leading (count + 1) value)
  | (tokens, .surrogate chars leading), char =>
      if char = '\\' then some (tokens, .surrogateEscape chars leading) else none
  | (tokens, .surrogateEscape chars leading), char =>
      if char = 'u' then some (tokens, .code chars (some leading) 0 0) else none

/-- The tokens of a text. -/
def tokens? (chars : List Char) : Option (List Token) := do
  match ← chars.foldlM step? ([], .between) with
  | (tokens, .between) => return tokens.reverse
  | (tokens, .bare chars) => return (← endLiteral? tokens chars).reverse
  | _ => none

/-! ## Building -/

/-- A container that is still open, with what it has so far, the newest first. -/
inductive Container where
  | list (items : List Document)
  | record (members : List (String × Document))
  /-- A record that waits for the value of a member. -/
  | member (members : List (String × Document)) (name : String)

/-- What may come next. -/
inductive Expected where
  | value
  | valueOrEnd
  | name
  | nameOrEnd
  | colon (name : String)
  | commaOrEnd

/-- Where the builder stands. -/
inductive Builder where
  | building (containers : List Container) (expected : Expected)
  | finished (document : Document)

/-- Put a complete value into the innermost container. -/
def put? (value : Document) : List Container → Option Builder
  | [] => some (.finished value)
  | .list items :: outer => some (.building (.list (value :: items) :: outer) .commaOrEnd)
  | .member members name :: outer =>
      let others := members.filter (·.1 ≠ name)
      some (.building (.record ((name, value) :: others) :: outer) .commaOrEnd)
  | .record _ :: _ => none

def close? (char : Char) : List Container → Option Builder
  | .list items :: outer => if char = ']' then put? (.list items.reverse) outer else none
  | .record members :: outer => if char = '}' then put? (.record members.reverse) outer else none
  | _ => none

def begin? (containers : List Container) : Token → Option Builder
  | .text value => put? (.text value) containers
  | .literal value => put? value containers
  | .sign '[' => some (.building (.list [] :: containers) .valueOrEnd)
  | .sign '{' => some (.building (.record [] :: containers) .nameOrEnd)
  | .sign _ => none

def take? : Builder → Token → Option Builder
  | .finished _, _ => none
  | .building containers .value, token => begin? containers token
  | .building containers .valueOrEnd, .sign ']' => close? ']' containers
  | .building containers .valueOrEnd, token => begin? containers token
  | .building containers .name, .text name => some (.building containers (.colon name))
  | .building containers .nameOrEnd, .text name => some (.building containers (.colon name))
  | .building containers .nameOrEnd, .sign char => close? char containers
  | .building (.record members :: outer) (.colon name), .sign ':' =>
      some (.building (.member members name :: outer) .value)
  | .building (.list items :: outer) .commaOrEnd, .sign ',' =>
      some (.building (.list items :: outer) .value)
  | .building (.record members :: outer) .commaOrEnd, .sign ',' =>
      some (.building (.record members :: outer) .name)
  | .building containers .commaOrEnd, .sign char => close? char containers
  | _, _ => none

def build? (tokens : List Token) : Option Document := do
  match ← tokens.foldlM take? (.building [] .value) with
  | .finished document => return document
  | .building _ _ => none

def read? (text : String) : Option Document := do
  build? (← tokens? text.toList)

/-! ## Writing -/

/-- A character in a text. -/
def writeChar (char : Char) : String :=
  if char = '"' then "\\\""
  else if char = '\\' then "\\\\"
  else if char < ' ' then
    let digits := Nat.toDigits 16 char.toNat
    "\\u" ++ String.ofList (List.replicate (4 - digits.length) '0' ++ digits)
  else
    String.singleton char

/-- A text with its quotes. -/
def writeText (text : String) : String :=
  "\"" ++ String.join (text.toList.map writeChar) ++ "\""

def writeNumeral (numeral : Numeral) : String :=
  (if numeral.negative then "-" else "") ++ toString numeral.digits ++ "e"
    ++ toString numeral.exponent

mutual

def write : Document → String
  | .null => "null"
  | .bool value => toString value
  | .integer value => toString value
  | .numeral value => writeNumeral value
  | .text value => writeText value
  | .list items => "[" ++ String.intercalate "," (writeAll items) ++ "]"
  | .record members => "\x7b" ++ String.intercalate "," (writeMembers members) ++ "\x7d"

/-- The texts of some documents. -/
def writeAll : List Document → List String
  | [] => []
  | document :: documents => write document :: writeAll documents

def writeMembers : List (String × Document) → List String
  | [] => []
  | (name, value) :: members => (writeText name ++ ":" ++ write value) :: writeMembers members

end

end Json
end StageLink
