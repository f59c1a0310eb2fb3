import PhpHandbook.Source.Munch
import PhpHandbook.Text.Alphanumeric
import PhpHandbook.Text.Blank

/-!
# From text to tokens

A file starts outside the tags.  Each step takes the first character together with a number of
characters after it, so the walk is a recursion on what is left and nothing is ever lost: what
lies between two tokens is white space inside the tags, or the newline that belongs to a closing
tag.  A character that starts no token becomes a token of its own with a fault beside it, and
the walk goes on.

This is the lexer of sources: `Mode` tells whether the walk is inside the tags, `piece` cuts one
token, `heredocBody?` finds the end of a heredoc, and `tokenize` lexes a source into tokens and
errors.
-/

namespace PhpHandbook.Source

/-- Whether the walk is inside or outside the tags. -/
inductive Mode where
  | html
  | php
deriving DecidableEq, Repr

/-- What can be wrong with a token. -/
inductive LexFault where
  /-- The character starts no token. -/
  | unexpectedChar
  /-- The heredoc with this label is never closed. -/
  | unterminatedHeredoc (label : String)
deriving DecidableEq, Repr

/-- The fault as it is shown to people. -/
def LexFault.message : LexFault → String
  | .unexpectedChar => "unexpected character"
  | .unterminatedHeredoc label => "unterminated heredoc \x60" ++ label ++ "\x60"

/-- A fault with its place. -/
structure LexError where
  /-- What is wrong. -/
  fault : LexFault
  /-- Where. -/
  span : Span
deriving DecidableEq, Repr

/-- The fault and its place as they are shown to people. -/
def LexError.message (e : LexError) : String :=
  e.fault.message ++ " at " ++ e.span.describe

/-- One step of the walk, which starts at a given character. -/
structure Piece where
  /-- The kind of token. -/
  kind : TokenKind
  /-- How many characters after the first belong to the token. -/
  tail : Nat
  /-- How many characters after the token are passed over. -/
  skipped : Nat := 0
  /-- Where the walk goes on. -/
  mode : Mode
  /-- What is wrong with the token. -/
  fault : Option LexFault := none

/-- The length of an opening tag: `<?=`, or `<?php` in any case with one blank character or the
end of the file behind it. -/
def openTagLength? : List Char → Option Nat
  | '<' :: '?' :: '=' :: _ => some 3
  | '<' :: '?' :: p :: h :: q :: rest =>
    if p.toLower == 'p' && h.toLower == 'h' && q.toLower == 'p' then
      match rest with
      | [] => some 5
      | c :: _ => if Text.isBlank c then some 6 else none
    else none
  | _ => none

/-- The number of characters in front of the next `<?`. -/
def htmlRun (seen : Nat) : List Char → Nat
  | '<' :: '?' :: _ => seen
  | [] => seen
  | _ :: cs => htmlRun (seen + 1) cs

/-- The step outside the tags: an opening tag, or text up to the next one.  An opening that is no
tag stays text. -/
def htmlPiece (c : Char) (cs : List Char) : Piece :=
  match openTagLength? (c :: cs) with
  | some n => { kind := .openTag, tail := n - 1, mode := .php }
  | none =>
    if c == '<' && cs.head? == some '?' then { kind := .inlineHtml, tail := 1, mode := .html }
    else { kind := .inlineHtml, tail := htmlRun 0 cs, mode := .html }

/-- Whether a line that starts here closes the heredoc with this label; gives the length of the
line up to the end of the label. -/
def closingLine? (label cs : List Char) : Option Nat :=
  let indent := Text.run (fun c => Text.isBlank c && c != '\n') cs
  let line := cs.drop indent
  if label.isPrefixOf line &&
      !(line.drop label.length).head?.any (fun c => Text.isAlphanumeric c || c == '_') then
    some (indent + label.length)
  else none

/-- The length of a heredoc body up to the end of its closing label. -/
def heredocBody? (label : List Char) (seen : Nat) : List Char → Option Nat
  | [] => none
  | c :: cs =>
    if c = '\n' then
      match closingLine? label cs with
      | some n => some (seen + 1 + n)
      | none => heredocBody? label (seen + 1) cs
    else heredocBody? label (seen + 1) cs

/-- The step inside the tags, at a character that is no gap. -/
def phpPiece (c : Char) (cs : List Char) : Piece :=
  match munch c cs with
  | .token .closeTag n =>
    { kind := .closeTag, tail := n, mode := .html
      skipped := if (cs.drop n).head? == some '\n' then 1 else 0 }
  | .token kind n => { kind, tail := n, mode := .php }
  | .heredoc label n =>
    match heredocBody? label 0 (cs.drop n) with
    | some m => { kind := .heredoc, tail := n + m, mode := .php }
    | none =>
      { kind := .heredoc, tail := cs.length, mode := .php
        fault := some (.unterminatedHeredoc (String.ofList label)) }
  | .nothing => { kind := .error, tail := 0, mode := .php, fault := some .unexpectedChar }

/-- The step at a character in either mode. -/
def piece (mode : Mode) (c : Char) (cs : List Char) : Piece :=
  match mode with
  | .html => htmlPiece c cs
  | .php => phpPiece c cs

/-- The tokens of a text that starts at `offset`, each with its fault. -/
def walk (mode : Mode) (offset : Nat) : List Char → List (Token × Option LexFault)
  | [] => [(⟨.eof, ⟨offset, offset⟩, ""⟩, none)]
  | c :: cs =>
    if mode = .php ∧ isGap c then walk mode (offset + c.utf8Size) cs
    else
      let p := piece mode c cs
      let lexeme := c :: cs.take p.tail
      let stop := offset + byteLength lexeme
      let skipped := (cs.drop p.tail).take p.skipped
      (⟨p.kind, ⟨offset, stop⟩, String.ofList lexeme⟩, p.fault) ::
        walk p.mode (stop + byteLength skipped) (cs.drop (p.tail + p.skipped))
termination_by cs => cs.length
decreasing_by all_goals simp only [List.length_cons, List.length_drop]; omega

/-- The outcome of reading a text. -/
structure Lexed where
  /-- All tokens, the end of the file last. -/
  tokens : List Token
  /-- What was wrong, in order. -/
  errors : List LexError
deriving Repr

/-- **Tokenizes** a text. -/
def tokenize (text : List Char) : Lexed :=
  let items := walk .html 0 text
  { tokens := items.map (·.1)
    errors := items.filterMap fun item => item.2.map (⟨·, item.1.span⟩) }

end PhpHandbook.Source
