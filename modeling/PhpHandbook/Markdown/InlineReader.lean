import PhpHandbook.Markdown.Inline
import PhpHandbook.Markdown.RawHtml

/-!
# Reading the content of a paragraph

The characters of a paragraph are read from left to right.  Code, raw HTML and addresses in angle
brackets are taken as a whole where they start; a closing bracket that is followed by a target, or
whose text is the label of one, makes a link of what stands since the opening bracket.  Links do
not nest.

## Main definitions

* `scan`: what starts at a character.
* `readInlines`: the content that characters denote.
-/

namespace PhpHandbook.Markdown

open Text (run isAsciiPunctuation)

/-! ### Code -/

/-- The number of characters in front of the next run of exactly `n` backticks. -/
def closingTicks? (n : Nat) (cs : List Char) : Option Nat :=
  let skip := run (· != '`') cs
  let ticks := run (· == '`') (cs.drop skip)
  if ticks = 0 then none
  else if ticks = n then some skip
  else (closingTicks? n (cs.drop (skip + ticks))).map (skip + ticks + ·)
termination_by cs.length
decreasing_by
  have : ticks ≤ (cs.drop skip).length := List.IsPrefix.length_le (List.takeWhile_prefix _)
  simp only [List.length_drop, skip, ticks] at *
  omega

/-- Code between runs of backticks: line ends become blanks, and one blank goes at both ends if
there is one at both and something else between. -/
def codeText (cs : List Char) : List Char :=
  let cs := cs.map fun c => if c = '\n' then ' ' else c
  if cs.head? = some ' ' ∧ cs.getLast? = some ' ' ∧
    !cs.all (· == ' ') then (cs.drop 1).dropLast
  else cs

/-! ### Addresses in angle brackets -/

/-- Characters of the name of a scheme behind its first letter. -/
def isSchemePart (c : Char) : Bool :=
  c.isAlphanum || c == '.' || c == '-' || c == '+'

/-- The number of characters of an absolute address in front of its closing bracket. -/
def address? (cs : List Char) : Option Nat :=
  let n := run isSchemePart cs
  if cs.head?.any Char.isAlpha && 2 ≤ n && n ≤ 32 && (cs.drop n).head? == some ':' then
    let k := run (fun c => ' ' < c && c != '<' && c != '>') cs
    if (cs.drop k).head? = some '>' then some k else none
  else none

/-- Characters of an address for mail in front of the `@`. -/
def isMailboxPart (c : Char) : Bool :=
  c.isAlphanum || ".!#$%&'*+/=?^_`\x7b|\x7d~-".toList.contains c

/-- Whether the parts of a domain are words of letters, digits and inner hyphens. -/
def isDomain (cs : List Char) : Bool :=
  (Text.splitChars '.' cs).all fun part =>
    !part.isEmpty && part.length ≤ 63 && part.head? != some '-' && part.getLast? != some '-'

/-- The number of characters of an address for mail in front of its closing bracket. -/
def mailAddress? (cs : List Char) : Option Nat :=
  let n := run isMailboxPart cs
  match cs.drop n with
  | '@' :: rest =>
    let k := run (fun c => c.isAlphanum || c == '-' || c == '.') rest
    if n ≠ 0 ∧ isDomain (rest.take k) ∧ (rest.drop k).head? = some '>' then some (n + 1 + k)
    else none
  | _ => none

/-! ### What starts at a character -/

/-- What a place in the text says. -/
inductive Action where
  /-- A piece of content. -/
  | piece (p : Piece)
  /-- Nothing that is shown. -/
  | nothing
  /-- A bracket that may open a link or an image. -/
  | opening (image : Bool)
  /-- A bracket that may close one. -/
  | closing

/-- Text. -/
def Action.text (cs : List Char) : Action :=
  .piece (.settled (.text cs))

/-- Content that is settled. -/
def Action.settled (i : Inline) : Action :=
  .piece (.settled i)

/-- **What starts at a character**, and how many characters behind it belong to it. -/
def scan (before c : Char) (cs : List Char) : Action × Nat :=
  match c with
  | '\\' =>
    match cs with
    | '\n' :: _ => (.settled .hardBreak, 1)
    | d :: _ => if isAsciiPunctuation d then (.text [d], 1) else (.text ['\\'], 0)
    | [] => (.text ['\\'], 0)
  | '\n' => (.settled .softBreak, 0)
  | '`' =>
    let ticks := run (· == '`') cs
    match closingTicks? (ticks + 1) (cs.drop ticks) with
    | some n => (.settled (.code (codeText ((cs.drop ticks).take n))), ticks + n + ticks + 1)
    | none => (.text (List.replicate (ticks + 1) '`'), ticks)
  | '<' =>
    match address? cs with
    | some n => (.settled (.link ⟨cs.take n, []⟩ [.text (cs.take n)]), n + 1)
    | none =>
      match mailAddress? cs with
      | some n => (.settled (.mail (cs.take n)), n + 1)
      | none =>
        match rawHtml? cs with
        | some n => (.nothing, n)
        | none => (.text ['<'], 0)
  | '&' =>
    match characterRef? cs with
    | some (value, n) => (.text value, n)
    | none => (.text ['&'], 0)
  | '!' => if cs.head? = some '[' then (.opening true, 1) else (.text ['!'], 0)
  | '[' => (.opening false, 0)
  | ']' => (.closing, 0)
  | '\x00' => (.text ['\ufffd'], 0)
  | c =>
    if c = '*' ∨ c = '_' ∨ c = '~' then
      let more := run (· == c) cs
      let after := (cs.drop more).head?
      let opens := DelimiterRun.canOpen c (more + 1) before after
      let closes := DelimiterRun.canClose c (more + 1) before after
      if (opens || closes) && (c != '~' || more + 1 ≤ 2) then
        (.piece (.run ⟨c, more + 1, more + 1, opens, closes⟩), more)
      else (.text (List.replicate (more + 1) c), more)
    else if isSpace c then
      let more := run isSpace cs
      match cs.drop more with
      | [] => (.nothing, more)
      | '\n' :: _ => (.settled (if more = 0 then .softBreak else .hardBreak), more + 1)
      | _ => (.text [c], 0)
    else (.text [c], 0)

/-! ### Links -/

/-- A bracket that may open a link or an image. -/
structure Bracket where
  /-- Whether it opens an image. -/
  image : Bool
  /-- Whether it may still open something: a link inside a link may not. -/
  active : Bool
  /-- The characters behind it. -/
  inside : List Char
  /-- The pieces in front of it, last first. -/
  front : List Piece

/-- The bracket as text. -/
def Bracket.asText (b : Bracket) : Piece :=
  .settled (.text (if b.image then ['!', '['] else ['[']))

/-- The targets of labels. -/
abbrev Targets := List (List Char × Target)

/-- The target of a label. -/
def Targets.find? (targets : Targets) (label : List Char) : Option Target :=
  targets.lookup (labelKey label)

/-- The target of a link whose text is `inner` and behind whose closing bracket `cs` stands, and
how many of these characters belong to it: a target in parentheses, a label in brackets, or its
own text as a label, perhaps with empty brackets behind it. -/
def linkTarget? (targets : Targets) (inner cs : List Char) : Option (Target × Nat) :=
  match inlineTarget? cs with
  | some found => some found
  | none =>
    let own := match labelRest? false (inner ++ [']']) with
      | some (label, n) => if n = inner.length + 1 then targets.find? label else none
      | none => none
    match cs with
    | '[' :: ']' :: _ => own.map (·, 2)
    | _ =>
      match label? cs with
      | some (label, n) => (targets.find? label).map (·, n)
      | none => own.map (·, 0)

/-- Makes links impossible around a link. -/
def deactivate (brackets : List Bracket) : List Bracket :=
  brackets.map fun b => if b.image then b else { b with active := false }

/-- Reads pieces.  `pieces` holds those since the innermost bracket, last first. -/
def readPieces (targets : Targets) (brackets : List Bracket) (pieces : List Piece) (before : Char) :
    List Char → List Piece
  | [] => (pieces ++ brackets.flatMap fun b => b.asText :: b.front).reverse
  | c :: cs =>
    let (action, n) := scan before c cs
    let last := ((c :: cs).take (n + 1)).getLastD c
    match action with
    | .piece p => readPieces targets brackets (p :: pieces) last (cs.drop n)
    | .nothing => readPieces targets brackets pieces last (cs.drop n)
    | .opening image =>
      readPieces targets (⟨image, true, cs.drop n, pieces⟩ :: brackets) [] last (cs.drop n)
    | .closing =>
      match brackets with
      | [] => readPieces targets [] (.settled (.text [']']) :: pieces) last cs
      | b :: outer =>
        let inner := b.inside.take (b.inside.length - (cs.length + 1))
        match if b.active then linkTarget? targets inner cs else none with
        | some (target, n) =>
          let content := pairRuns pieces.reverse
          let made : Inline := if b.image then .image target content else .link target content
          let outer := if b.image then outer else deactivate outer
          readPieces targets outer (.settled made :: b.front)
            ((c :: cs).take (n + 1) |>.getLastD c) (cs.drop n)
        | none =>
          readPieces targets outer
            (.settled (.text [']']) :: pieces ++ b.asText :: b.front) last cs
termination_by cs => cs.length
decreasing_by all_goals simp_wf; try omega

/-- **The content that characters denote.** -/
def readInlines (targets : Targets) (cs : List Char) : List Inline :=
  pairRuns (readPieces targets [] [] '\n' cs)

end PhpHandbook.Markdown
