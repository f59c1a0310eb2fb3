/-!
# Text inside markup

The five characters with a meaning in HTML content and attribute values are written as
character references; everything else stands for itself.

It is the escaping function of the renderer of pages.
-/

namespace PhpHandbook.Text

/-- The written form of one character. -/
def markupChar : Char → List Char
  | '&' => "&amp;".toList
  | '<' => "&lt;".toList
  | '>' => "&gt;".toList
  | '"' => "&quot;".toList
  | '\'' => "&#39;".toList
  | c => [c]

/-- **Escaping** for HTML content and attribute values. -/
def markup (s : String) : String :=
  String.ofList (s.toList.flatMap markupChar)

end PhpHandbook.Text
