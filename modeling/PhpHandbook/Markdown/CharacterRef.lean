import PhpHandbook.Markdown.CharacterNames
import PhpHandbook.Text.Digit
import PhpHandbook.Text.Punctuation
import PhpHandbook.Text.Split

/-!
# Character references and escapes

A character may be written by its name (`&copy;`), by its number in decimal (`&#169;`) or
hexadecimal notation (`&#xA9;`), and a punctuation mark loses its meaning behind a backslash.
-/

namespace PhpHandbook.Markdown

open Text (run isHexDigit numberOf isAsciiPunctuation)

/-- The character with the given number, if there is one; zero gives the replacement character. -/
def numberedCharacter? (n : Nat) : Option Char :=
  if n = 0 then some '\ufffd' else if n.isValidChar then some (Char.ofNat n) else none

/-- The characters that names stand for. -/
def namedCharacters : List (List Char × List Char) :=
  characterNames.flatMap fun row => (Text.splitChars ' ' row.toList).map fun entry =>
    let name := entry.takeWhile (· != '=')
    let points := Text.splitChars ',' (entry.drop (name.length + 1))
    (name, points.map fun digits => Char.ofNat (numberOf 16 digits))

/-- **The characters that a reference stands for**, and the number of characters behind the `&`
that it covers. -/
def characterRef? : List Char → Option (List Char × Nat)
  | '#' :: x :: cs =>
    if x == 'x' || x == 'X' then
      let n := min 6 (run isHexDigit cs)
      if n ≠ 0 ∧ (cs.drop n).head? = some ';' then
        (numberedCharacter? (numberOf 16 (cs.take n))).map fun c => ([c], n + 3)
      else none
    else
      let n := min 7 (run Char.isDigit (x :: cs))
      if n ≠ 0 ∧ ((x :: cs).drop n).head? = some ';' then
        (numberedCharacter? (numberOf 10 ((x :: cs).take n))).map fun c => ([c], n + 2)
      else none
  | cs =>
    let n := run Char.isAlphanum cs
    if (cs.drop n).head? = some ';' then
      (namedCharacters.lookup (cs.take n)).map fun value => (value, n + 1)
    else none

/-- Replaces references and escapes by the characters they stand for. -/
def unescape : List Char → List Char
  | [] => []
  | '\\' :: c :: cs =>
    if isAsciiPunctuation c then c :: unescape cs else '\\' :: unescape (c :: cs)
  | c :: cs =>
    if c = '&' then
      match characterRef? cs with
      | some (value, n) => value ++ unescape (cs.drop n)
      | none => '&' :: unescape cs
    else c :: unescape cs
termination_by cs => cs.length
decreasing_by all_goals simp_wf; try omega

end PhpHandbook.Markdown
