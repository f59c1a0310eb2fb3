/-!
# Finding and replacing a part of a text

Every occurrence of a pattern is replaced, from left to right; what was put in is not searched
again.
-/

namespace PhpHandbook.Text

/-- Whether a pattern stands somewhere in a text. -/
def occursInChars (pattern : List Char) : List Char → Bool
  | [] => pattern.isEmpty
  | c :: cs => pattern.isPrefixOf (c :: cs) || occursInChars pattern cs

/-- Whether a pattern stands somewhere in a text. -/
def occursIn (pattern text : String) : Bool :=
  occursInChars pattern.toList text.toList

/-- Replaces every occurrence of a pattern that is not empty. -/
def replaceChars (pattern new : List Char) : List Char → List Char
  | [] => []
  | c :: cs =>
    if pattern.isPrefixOf (c :: cs) then
      new ++ replaceChars pattern new (cs.drop (pattern.length - 1))
    else c :: replaceChars pattern new cs
termination_by cs => cs.length
decreasing_by all_goals simp only [List.length_cons, List.length_drop]; omega

/-- Replaces every occurrence of a pattern that is not empty. -/
def replace (pattern new text : String) : String :=
  String.ofList (replaceChars pattern.toList new.toList text.toList)

end PhpHandbook.Text
