import PhpHandbook.Markdown.LinkParts
import PhpHandbook.Text.Blank

/-!
# Text with emphasis

The content of a paragraph is a list of `Inline`s.  Stars, low lines and tildes open and close
emphasis in pairs of runs; which runs pair up is settled here, after links and code are known.

## Main definitions

* `Inline`: text, code, emphasis, links, images and line breaks.
* `DelimiterRun`: a run of stars, low lines or tildes that may open or close emphasis.
* `pairRuns`: runs that pair up become emphasis, and the others text.
-/

namespace PhpHandbook.Markdown

open Text (isBlank isPunctuation)

/-- A part of a paragraph's content. -/
inductive Inline where
  /-- Text as it is. -/
  | text (chars : List Char)
  /-- Code as it is. -/
  | code (chars : List Char)
  /-- A line end that only separates words. -/
  | softBreak
  /-- A line end that is kept. -/
  | hardBreak
  /-- Between single stars or low lines. -/
  | emphasis (content : List Inline)
  /-- Between double stars or low lines. -/
  | strong (content : List Inline)
  /-- Between tildes. -/
  | struck (content : List Inline)
  /-- A link. -/
  | link (target : Target) (content : List Inline)
  /-- A link to an address for mail. -/
  | mail (address : List Char)
  /-- An image, whose content stands in for it. -/
  | image (target : Target) (content : List Inline)

/-- A run of equal marks that may open or close emphasis. -/
structure DelimiterRun where
  /-- The mark. -/
  mark : Char
  /-- How many of the marks are left. -/
  count : Nat
  /-- How many marks there were. -/
  length : Nat
  /-- Whether it may open emphasis. -/
  opens : Bool
  /-- Whether it may close emphasis. -/
  closes : Bool
deriving DecidableEq, Repr

namespace DelimiterRun

/-- The marks that are left, as text. -/
def asText (r : DelimiterRun) : Inline :=
  .text (List.replicate r.count r.mark)

/-- Whether a run may open emphasis, seen from the characters around it: what it opens does not
start with a blank, and low lines and single tildes do not open inside a word. -/
def canOpen (mark : Char) (length : Nat) (before : Char) : Option Char → Bool
  | none => false
  | some after =>
    !isBlank after &&
      (mark == '*' && !isPunctuation after || mark == '~' && 1 < length ||
        isBlank before || isPunctuation before)

/-- Whether a run may close emphasis, seen from the characters around it. -/
def canClose (mark : Char) (length : Nat) (before : Char) : Option Char → Bool
  | none => !isBlank before
  | some after =>
    !isBlank before &&
      ((mark == '*' || mark == '~' && 1 < length) && !isPunctuation before ||
        mark == '~' && before == '~' || isBlank after || isPunctuation after)

/-- Whether a run closes what another opened.  Where one of the two could both open and close, the
sum of their lengths is no multiple of three unless both lengths are, and tildes pair up only with
as many tildes. -/
def pairsWith (closer opener : DelimiterRun) : Bool :=
  closer.mark == opener.mark &&
    (closer.mark != '~' || closer.length == opener.length) &&
    (!(closer.opens && closer.closes) && !(opener.opens && opener.closes) ||
      (closer.length + opener.length) % 3 != 0 || closer.length % 3 == 0)

end DelimiterRun

/-- A piece of content in which emphasis is not settled. -/
inductive Piece where
  /-- Content that is settled. -/
  | settled (inline : Inline)
  /-- A run of marks. -/
  | run (r : DelimiterRun)

/-- Emphasis from the given number of marks on both sides, the pairs inside. -/
def wrap (mark : Char) : Nat → List Inline → List Inline
  | 0, content => content
  | 1, content => [if mark = '~' then .struck content else .emphasis content]
  | n + 2, content => wrap mark n [if mark = '~' then .struck content else .strong content]

/-- A run that waits for its closing counterpart, with the content behind it, last first. -/
structure Opener where
  /-- The run. -/
  run : DelimiterRun
  /-- The content since. -/
  content : List Inline

/-- Gives up waiting openers, innermost first: their marks become text. -/
def giveUp (openers : List Opener) : List Inline :=
  openers.flatMap fun o => o.content ++ [o.run.asText]

/-- What is settled so far, last first, and the openers that wait, innermost first. -/
structure Pairing where
  /-- The content in front of all openers. -/
  base : List Inline := []
  /-- The openers. -/
  openers : List Opener := []

namespace Pairing

/-- Adds settled content. -/
def add (p : Pairing) (content : List Inline) : Pairing :=
  match p.openers with
  | [] => { p with base := content.reverse ++ p.base }
  | o :: rest => { p with openers := { o with content := content.reverse ++ o.content } :: rest }

/-- The innermost opener that a run closes, between the openers inside and outside of it. -/
def counterpart? (closer : DelimiterRun) :
  List Opener → Option (List Opener × Opener × List Opener)
  | [] => none
  | o :: rest =>
    if closer.pairsWith o.run then some ([], o, rest)
    else (counterpart? closer rest).map fun (inner, found, outer) => (o :: inner, found, outer)

/-- Closes as many openers as a run can, and gives the run with the marks that are left. -/
def close (p : Pairing) (r : DelimiterRun) : Pairing × DelimiterRun :=
  match counterpart? r p.openers with
  | none => (p, r)
  | some (inner, o, outer) =>
    let n := min r.count o.run.count
    if n = 0 then (p, r)
    else
      let content := wrap r.mark n (giveUp inner ++ o.content).reverse
      let left := o.run.count - n
      let p : Pairing :=
        if left = 0 then { p with openers := outer }
        else { p with openers := ⟨{ o.run with count := left }, []⟩ :: outer }
      close (p.add content) { r with count := r.count - n }
termination_by r.count
decreasing_by omega

/-- Takes the next piece. -/
def step (p : Pairing) : Piece → Pairing
  | .settled inline => p.add [inline]
  | .run r =>
    let (p, r) := if r.closes then p.close r else (p, r)
    if r.count = 0 then p
    else if r.opens then { p with openers := ⟨r, []⟩ :: p.openers }
    else p.add [r.asText]

end Pairing

/-- **Settles emphasis.** -/
def pairRuns (pieces : List Piece) : List Inline :=
  let p := pieces.foldl Pairing.step {}
  (giveUp p.openers ++ p.base).reverse

end PhpHandbook.Markdown
