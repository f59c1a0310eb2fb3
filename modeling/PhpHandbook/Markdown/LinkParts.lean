import PhpHandbook.Markdown.CharacterRef
import PhpHandbook.Text.LetterCase

/-!
# Labels, targets and titles of links

The parts that links and their definitions are made of.  Each reader takes the characters at the
front and tells how many there are.  A line end inside a part is the character `'\n'`; what stands
in front of a line's text is already gone.
-/

namespace PhpHandbook.Markdown

open Text (run isAsciiPunctuation)

/-- Blanks inside a line. -/
def isSpace (c : Char) : Bool :=
  c == ' ' || c == '\t' || c == '\x0b' || c == '\x0c'

/-- Blanks and line ends. -/
def isSpaceOrEnd (c : Char) : Bool :=
  isSpace c || c == '\n'

/-- The number of blanks at the front with at most one line end among them. -/
def separator (cs : List Char) : Nat :=
  let n := run isSpace cs
  match cs.drop n with
  | '\n' :: rest => n + 1 + run isSpace rest
  | _ => n

/-- The text of a label and the number of its characters with the closing bracket, from behind
the opening one.  A run of blanks counts as one, a label holds at most one line end in a row, no
bracket without a backslash in front, and something that is not blank. -/
def labelRest? (solid : Bool) : List Char → Option (List Char × Nat)
  | [] => none
  | '[' :: _ => none
  | ']' :: _ => if solid then some ([], 1) else none
  | '\\' :: c :: cs => (labelRest? solid cs).map fun (text, n) => ('\\' :: c :: text, n + 2)
  | c :: cs =>
    if isSpaceOrEnd c then
      let n := run isSpaceOrEnd cs
      if ((c :: cs).take (n + 1)).count '\n' ≤ 1 then
        (labelRest? solid (cs.drop n)).map fun (text, k) =>
          ((if n = 0 ∧ c = ' ' then c else ' ') :: text, 1 + n + k)
      else none
    else (labelRest? true cs).map fun (text, n) => (c :: text, n + 1)
termination_by cs => cs.length
decreasing_by all_goals simp_wf; try omega

/-- The text of a label in brackets, and the number of its characters. -/
def label? : List Char → Option (List Char × Nat)
  | '[' :: cs => (labelRest? false cs).map fun (text, n) => (text, n + 1)
  | _ => none

/-- Labels that differ only in the case of letters name the same target. -/
def labelKey (text : List Char) : List Char :=
  text.flatMap Text.folded

/-- The number of characters of a target in angle brackets, from behind the opening one, with the
closing one. -/
def angleTarget? : List Char → Option Nat
  | [] => none
  | '\n' :: _ => none
  | '<' :: _ => none
  | '>' :: _ => some 1
  | '\\' :: c :: cs =>
    if isAsciiPunctuation c then (angleTarget? cs).map (· + 2)
    else (angleTarget? (c :: cs)).map (· + 1)
  | _ :: cs => (angleTarget? cs).map (· + 1)

/-- The number of characters of a target without angle brackets: it ends at a blank, a control
character or a bracket that was not opened in it, and brackets in it are balanced, `deepest`
deep. -/
def bareTarget? (deepest depth : Nat) : List Char → Option Nat
  | [] => if depth = 0 then some 0 else none
  | c :: cs =>
    if c ≤ ' ' ∨ (c = ')' ∧ depth = 0) then if depth = 0 then some 0 else none
    else if c = '(' then
      if depth > deepest then none else (bareTarget? deepest (depth + 1) cs).map (· + 1)
    else if c = ')' then (bareTarget? deepest (depth - 1) cs).map (· + 1)
    else
      match c, cs with
      | '\\', d :: rest =>
        if isAsciiPunctuation d then (bareTarget? deepest depth rest).map (· + 2)
        else (bareTarget? deepest depth (d :: rest)).map (· + 1)
      | _, cs => (bareTarget? deepest depth cs).map (· + 1)
termination_by cs => cs.length

/-- A target and the number of its characters. -/
def target? (deepest : Nat) : List Char → Option (List Char × Nat)
  | '<' :: cs => (angleTarget? cs).map fun n => (unescape (cs.take (n - 1)), n + 1)
  | cs => (bareTarget? deepest 0 cs).map fun n => (unescape (cs.take n), n)

/-- The number of characters of a title from behind its opening quote, with the closing one. -/
def titleRest? (opening closing : Char) : List Char → Option Nat
  | [] => none
  | c :: cs =>
    if c = closing then some 1
    else if c = opening then none
    else
      match c, cs with
      | '\\', d :: rest =>
        if isAsciiPunctuation d then (titleRest? opening closing rest).map (· + 2)
        else (titleRest? opening closing (d :: rest)).map (· + 1)
      | _, cs => (titleRest? opening closing cs).map (· + 1)
termination_by cs => cs.length

/-- A title in quotes or parentheses, and the number of its characters. -/
def title? : List Char → Option (List Char × Nat)
  | c :: cs =>
    if c = '"' ∨ c = '\'' ∨ c = '(' then
      (titleRest? c (if c = '(' then ')' else c) cs).map fun n =>
        (unescape (cs.take (n - 1)), n + 1)
    else none
  | [] => none

/-- Where a link leads, and what is shown for it. -/
structure Target where
  /-- The address. -/
  url : List Char
  /-- The title, empty if there is none. -/
  title : List Char
deriving DecidableEq, Repr

/-- The target in parentheses behind the text of a link, and the number of its characters. -/
def inlineTarget? : List Char → Option (Target × Nat)
  | '(' :: cs => do
    let a := separator cs
    let (url, n) ← target? 32 (cs.drop a)
    let b := a + n + separator (cs.drop (a + n))
    let (title, c) := match title? (cs.drop b) with
      | some (title, n) => (title, b + n + separator (cs.drop (b + n)))
      | none => ([], b)
    if (cs.drop c).head? = some ')' then some (⟨url, title⟩, c + 2) else none
  | _ => none

/-- Whether nothing but blanks is left on the line. -/
def atLineEnd (cs : List Char) : Bool :=
  match cs.drop (run isSpace cs) with
  | [] => true
  | c :: _ => c == '\n'

/-- A definition of a target at the front of a paragraph: its label, the target, and the number of
characters up to the end of its last line.  A title on a line of its own that does not fill the
line is not part of the definition. -/
def definition? (cs : List Char) : Option (List Char × Target × Nat) := do
  let (label, a) ← label? cs
  let (':' :: _) := cs.drop a | none
  let b := a + 1 + separator (cs.drop (a + 1))
  let (url, n) ← target? 1 (cs.drop b)
  if n = 0 then none
  let c := b + n
  let gap := separator (cs.drop c)
  let bare := if atLineEnd (cs.drop c) then some (label, ⟨url, []⟩, c) else none
  if gap = 0 then bare
  else
    match title? (cs.drop (c + gap)) with
    | some (title, n) =>
      if atLineEnd (cs.drop (c + gap + n)) then
        some (label, ⟨url, title⟩, c + gap + n) else bare
    | none => bare

end PhpHandbook.Markdown
