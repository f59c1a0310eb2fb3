import PhpHandbook.Text.Digit

/-!
# Truth values, numbers and dates of a settings document

A value that is neither quoted nor bracketed is a truth value, a number or a date.  None of the
settings has such a value, so only the notation is checked and the value is kept as it is spelled.
-/

namespace PhpHandbook.Toml

open Text (run isHexDigit isBinaryDigit numberOf)

/-- Characters of an unquoted value. -/
def isValuePart (c : Char) : Bool :=
  c.isAlphanum || c == '+' || c == '-' || c == '_' || c == '.' || c == ':'

/-- Digits of one kind, with single low lines between them, and at least one. -/
def isDigits (p : Char → Bool) : List Char → Bool
  | [c] => p c
  | c :: '_' :: cs => p c && isDigits p cs
  | c :: cs => p c && isDigits p cs
  | [] => false

/-- The text without one sign in front. -/
def unsigned : List Char → List Char
  | '+' :: cs => cs
  | '-' :: cs => cs
  | cs => cs

/-- A whole number in decimal notation, without a sign: no digit stands behind a leading zero. -/
def isWhole (cs : List Char) : Bool :=
  isDigits Char.isDigit cs && (cs.head? != some '0' || cs.length == 1)

/-- The number that digits of a base write, low lines aside. -/
def digitsValue (base : Nat) (cs : List Char) : Nat :=
  numberOf base (cs.filter (· != '_'))

/-- The first number that does not fit into 64 bits with a sign. -/
def integerBound : Nat :=
  0x8000000000000000

/-- A whole number that fits into 64 bits with a sign. -/
def isInteger (cs : List Char) : Bool :=
  match cs with
  | '0' :: 'x' :: digits => isDigits isHexDigit digits && digitsValue 16 digits < integerBound
  | '0' :: 'o' :: digits =>
    isDigits (fun c => '0' ≤ c && c ≤ '7') digits && digitsValue 8 digits < integerBound
  | '0' :: 'b' :: digits => isDigits isBinaryDigit digits && digitsValue 2 digits < integerBound
  | _ =>
    let digits := unsigned cs
    let bound := if cs.head? == some '-' then integerBound + 1 else integerBound
    isWhole digits && digitsValue 10 digits < bound

/-- The exponent of a decimal number, from its mark on, or nothing. -/
def isExponent : List Char → Bool
  | [] => true
  | e :: cs => (e == 'e' || e == 'E') && isDigits Char.isDigit (unsigned cs)

/-- A decimal number: a whole number with a fraction, an exponent or both. -/
def isDecimal (cs : List Char) : Bool :=
  let digits := unsigned cs
  let isDigitPart c := c.isDigit || c == '_'
  let whole := digits.takeWhile isDigitPart
  digits == "inf".toList || digits == "nan".toList ||
    isWhole whole &&
      match digits.drop whole.length with
      | '.' :: cs =>
        let fraction := cs.takeWhile isDigitPart
        isDigits Char.isDigit fraction && isExponent (cs.drop fraction.length)
      | [] => false
      | cs => isExponent cs

/-- The number that the first `n` characters write, if they are all digits. -/
def fixedDigits? (n : Nat) (cs : List Char) : Option Nat :=
  let digits := cs.take n
  if digits.length = n ∧ digits.all Char.isDigit then some (digitsValue 10 digits) else none

/-- The number of days of a month. -/
def daysIn (year month : Nat) : Nat :=
  if month = 2 then (if year % 4 = 0 ∧ (year % 100 ≠ 0 ∨ year % 400 = 0) then 29 else 28)
  else if month = 4 ∨ month = 6 ∨ month = 9 ∨ month = 11 then 30 else 31

/-- A day: year, month and day of the month. -/
def isDay (cs : List Char) : Bool :=
  match fixedDigits? 4 cs, fixedDigits? 2 (cs.drop 5), fixedDigits? 2 (cs.drop 8) with
  | some year, some month, some day =>
    cs.length == 10 && (cs.drop 4).head? == some '-' && (cs.drop 7).head? == some '-' &&
      1 ≤ month && month ≤ 12 && 1 ≤ day && day ≤ daysIn year month
  | _, _, _ => false

/-- The distance from the zero meridian, or nothing. -/
def isOffset (cs : List Char) : Bool :=
  cs.isEmpty || cs == ['Z'] || cs == ['z'] ||
    (cs.length == 6 && (cs.head? == some '+' || cs.head? == some '-') &&
      (cs.drop 3).head? == some ':' &&
      match fixedDigits? 2 (cs.drop 1), fixedDigits? 2 (cs.drop 4) with
      | some hour, some minute => hour ≤ 23 && minute ≤ 59
      | _, _ => false)

/-- A time of day: hour, minute and second, a fraction, and what `tail` accepts. -/
def isTime (tail : List Char → Bool) (cs : List Char) : Bool :=
  match fixedDigits? 2 cs, fixedDigits? 2 (cs.drop 3), fixedDigits? 2 (cs.drop 6) with
  | some hour, some minute, some second =>
    (cs.drop 2).head? == some ':' && (cs.drop 5).head? == some ':' &&
      hour ≤ 23 && minute ≤ 59 && second ≤ 60 &&
      match cs.drop 8 with
      | '.' :: fraction => fraction.head?.any Char.isDigit && tail (fraction.dropWhile Char.isDigit)
      | rest => tail rest
  | _, _, _ => false

/-- A day, a time of day, or both. -/
def isMoment (cs : List Char) : Bool :=
  isDay cs || isTime List.isEmpty cs ||
    isDay (cs.take 10) && ['T', 't', ' '].contains ((cs.drop 10).headD 'x') &&
      isTime isOffset (cs.drop 11)

/-- **The unquoted value** at the front: its spelling, which may hold one blank, between a day and
a time. -/
def plain? (cs : List Char) : Option (String × Nat) :=
  let word := cs.takeWhile isValuePart
  let rest := cs.drop word.length
  let more := (rest.drop 1).takeWhile isValuePart
  let spelling :=
    if isDay word && rest.head? == some ' ' && !more.isEmpty then word ++ ' ' :: more else word
  if spelling == "true".toList || spelling == "false".toList || isInteger spelling ||
      isDecimal spelling || isMoment spelling then
    some (String.ofList spelling, spelling.length)
  else none

end PhpHandbook.Toml
