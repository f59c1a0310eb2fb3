import PhpHandbook.Source.Span

/-!
# Tokens

The tokens of a PHP file: words, literals, marks, tags and comments, each with the span and the
text it covers.  Comments are tokens like any other, so that they can be attached to the
declarations they describe.

These are the kinds of tokens of the lexer of sources: `Keyword` and `Mark` are the words and signs
with a kind of their own, `TokenKind` are all kinds, and `TokenKind.describe` is their wording in
errors.
-/

namespace PhpHandbook.Source

/-- The reserved words that matter to declarations. -/
inductive Keyword where
  | kwAbstract | kwAs | kwCase | kwClass | kwConst | kwEnum | kwExtends | kwFinal | kwFunction
  | kwImplements | kwInsteadof | kwInterface | kwNamespace | kwNew | kwPrivate | kwProtected
  | kwPublic | kwReadonly | kwStatic | kwTrait | kwUse | kwVar
deriving DecidableEq, Repr

namespace Keyword

/-- All keywords. -/
def all : List Keyword :=
  [.kwAbstract, .kwAs, .kwCase, .kwClass, .kwConst, .kwEnum, .kwExtends, .kwFinal, .kwFunction,
    .kwImplements, .kwInsteadof, .kwInterface, .kwNamespace, .kwNew, .kwPrivate, .kwProtected,
    .kwPublic, .kwReadonly, .kwStatic, .kwTrait, .kwUse, .kwVar]

/-- The spelling in small letters. -/
def text : Keyword → String
  | .kwAbstract => "abstract" | .kwAs => "as" | .kwCase => "case" | .kwClass => "class"
  | .kwConst => "const" | .kwEnum => "enum" | .kwExtends => "extends" | .kwFinal => "final"
  | .kwFunction => "function" | .kwImplements => "implements" | .kwInsteadof => "insteadof"
  | .kwInterface => "interface" | .kwNamespace => "namespace" | .kwNew => "new"
  | .kwPrivate => "private" | .kwProtected => "protected" | .kwPublic => "public"
  | .kwReadonly => "readonly" | .kwStatic => "static" | .kwTrait => "trait" | .kwUse => "use"
  | .kwVar => "var"

/-- The keyword a word spells, in capital or small letters. -/
def ofText? (word : List Char) : Option Keyword :=
  all.find? fun k => k.text.toList == word.map Char.toLower

/-- Whether the keyword modifies a member. -/
def isModifier : Keyword → Bool
  | .kwAbstract | .kwFinal | .kwPrivate | .kwProtected | .kwPublic | .kwReadonly | .kwStatic
  | .kwVar => true
  | _ => false

end Keyword

/-- Marks with a meaning of their own. -/
inductive Mark where
  | braceOpen | braceClose | parenOpen | parenClose | bracketOpen | bracketClose
  | semicolon | comma | doubleColon | colon | question | ampersand | pipe | equals
  | ellipsis | dot | arrow | nullsafeArrow | doubleArrow | backslash | dollar | attributeOpen
deriving DecidableEq, Repr

/-- The spelling of a mark. -/
def Mark.text : Mark → String
  | .braceOpen => "\x7b" | .braceClose => "\x7d" | .parenOpen => "(" | .parenClose => ")"
  | .bracketOpen => "[" | .bracketClose => "]" | .semicolon => ";" | .comma => ","
  | .doubleColon => "::" | .colon => ":" | .question => "?" | .ampersand => "&"
  | .pipe => "|" | .equals => "=" | .ellipsis => "..." | .dot => "." | .arrow => "->"
  | .nullsafeArrow => "?->" | .doubleArrow => "=>" | .backslash => "\\" | .dollar => "$"
  | .attributeOpen => "#["

/-- What a token is. -/
inductive TokenKind where
  /-- A reserved word. -/
  | keyword (word : Keyword)
  /-- A name without separators: `Foo`. -/
  | name
  /-- A name with inner separators: `Foo\Bar`. -/
  | qualifiedName
  /-- A name with a leading separator: `\Foo\Bar`. -/
  | rootedName
  /-- A dollar sign with a name. -/
  | variableName
  /-- An integer or decimal literal. -/
  | number
  /-- A quoted text, with its quotes. -/
  | quoted
  /-- A heredoc or nowdoc, from its opening to its closing label. -/
  | heredoc
  /-- A mark. -/
  | mark (mark : Mark)
  /-- Any other run of operator characters. -/
  | operator
  /-- The tag that leaves PHP. -/
  | closeTag
  /-- The tag that enters PHP. -/
  | openTag
  /-- Text outside the tags. -/
  | inlineHtml
  /-- A comment to the end of the line. -/
  | lineComment
  /-- A comment between `/*` and `*/`. -/
  | blockComment
  /-- The end of the file. -/
  | eof
  /-- A character that starts no token. -/
  | error
deriving DecidableEq, Repr, Inhabited

namespace TokenKind

/-- Whether the token is a comment. -/
def isTrivia : TokenKind → Bool
  | .lineComment | .blockComment => true
  | _ => false

/-- Whether the token can be a class name. -/
def isName : TokenKind → Bool
  | .name | .qualifiedName | .rootedName => true
  | _ => false

/-- Whether the token is a reserved word. -/
def isKeyword : TokenKind → Bool
  | .keyword _ => true
  | _ => false

/-- Whether the token modifies a member. -/
def isModifier : TokenKind → Bool
  | .keyword k => k.isModifier
  | _ => false

/-- How a kind of token is named to people. -/
def describe : TokenKind → String
  | .keyword k => k.text
  | .name => "identifier"
  | .qualifiedName => "qualified name"
  | .rootedName => "fully qualified name"
  | .variableName => "variable"
  | .number => "number"
  | .quoted => "string"
  | .heredoc => "heredoc"
  | .mark m => m.text
  | .operator => "operator"
  | .closeTag => "?>"
  | .openTag => "<?php"
  | .inlineHtml => "inline HTML"
  | .lineComment => "line comment"
  | .blockComment => "block comment"
  | .eof => "end of file"
  | .error => "error"

end TokenKind

/-- A token. -/
structure Token where
  /-- What it is. -/
  kind : TokenKind
  /-- Where it stands. -/
  span : Span
  /-- The text it covers. -/
  lexeme : String
deriving DecidableEq, Repr, Inhabited

/-- Whether the token is a documentation comment: a block comment that opens with two stars and
is not the empty comment. -/
def Token.isDocComment (t : Token) : Bool :=
  t.kind == .blockComment && "/**".toList.isPrefixOf t.lexeme.toList && t.lexeme != "/**/"

end PhpHandbook.Source
