import PhpHandbook.Registry.Scope
import PhpHandbook.Text.Kebab
import PhpHandbook.Text.Replace
import PhpHandbook.Text.Split

/-!
# Links

Where the page of a class lies, and what a reference to a class links to: its own page if it is
documented, the manual of the language if it lies outside all namespaces or in one that is set
aside for it, and nothing otherwise.

This is the resolver of addresses of the generator: `Links` are its settings, `outputPath` and
`relativeRoot` its functions on paths, and `Links.resolve` decides about one reference.
-/

namespace PhpHandbook.Handbook

open Registry (lower sameText unrooted)

/-- **The path of a page** below the output directory: one part for each part of the name. -/
def outputPath (name : String) : String :=
  "classes/" ++ "/".intercalate ((Text.split '\\' (unrooted name)).map Text.kebab) ++ ".html"

/-- The way from a page back to the output directory. -/
def relativeRoot (page : String) : String :=
  String.join (List.replicate (page.toList.count '/') "../")

/-- The address of a class in the manual of the language, with a place for its name. -/
def manualUrl : String :=
  "https://www.php.net/manual/en/class.\x7bname\x7d.php"

/-- How links are made. -/
structure Links where
  /-- What stands in front of the path of a page. -/
  baseUrl : String := ""
  /-- Namespaces whose classes are found in the manual. -/
  builtinSpaces : List String := []
  /-- The address of a class in the manual, with a place for its name. -/
  externalUrl : String := manualUrl
deriving DecidableEq, Repr

/-- A name without separators at both ends. -/
def bare (name : String) : String :=
  String.ofList ((name.toList.dropWhile (· == '\\')).reverse.dropWhile (· == '\\')).reverse

namespace Links

/-- Whether a namespace is one of those set aside, or lies in one. -/
def isBuiltinSpace (links : Links) (space : String) : Bool :=
  let space := lower (bare space)
  links.builtinSpaces.any fun builtin =>
    let builtin := lower (bare builtin)
    space == builtin || (builtin ++ "\\").toList.isPrefixOf space.toList

/-- The address of a class in the manual. -/
def external (links : Links) (name : String) : String :=
  let linkName := (lower (unrooted name)).map fun c => if c = '\\' then '-' else c
  Text.replace "\x7bname\x7d" linkName links.externalUrl

/-- **The link** to a class. -/
def resolve (links : Links) (name space : String) (documented : Bool) : Option String :=
  if documented then some (links.baseUrl ++ outputPath name)
  else if space.isEmpty || links.isBuiltinSpace space then some (links.external name)
  else none

end Links

end PhpHandbook.Handbook
