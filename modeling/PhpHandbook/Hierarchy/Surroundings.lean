import PhpHandbook.Hierarchy.Basic

/-!
# What surrounds a declaration

The facts about a declaration that documentation comments refer to: the imports of its file that
lead somewhere, its interfaces, and the comments in front of its uses of traits.

These are the facts about a source file that the context of a run keeps beside a declaration, for
the resolver of types and for the facets.
-/

namespace PhpHandbook.Hierarchy

open Declaration (Comment)
open Registry (ClassEntry lower)

/-- The surroundings of a declaration. -/
structure Surroundings where
  /-- The namespace. -/
  space : String
  /-- Alias and full name of the imports that name a registered class, or a namespace with one. -/
  imports : List (String × String)
  /-- The full names of the declared interfaces. -/
  interfaces : List String
  /-- The full names of the used traits, each with the comments in front of its first use. -/
  traitComments : List (String × String)
deriving DecidableEq, Repr

/-- Whether a name is that of a registered class, or of a namespace with one. -/
def isKnown (reg : Registry) (name : String) : Bool :=
  reg.contains name ||
    reg.entries.any fun e => (lower name ++ "\\").toList.isPrefixOf e.key.toList

/-- **The surroundings** of a declaration. -/
def surroundings (reg : Registry) (e : ClassEntry) : Surroundings where
  space := e.space
  imports := e.scope.imports.filter fun i => isKnown reg i.2
  interfaces := declaredInterfaces e
  traitComments := keepFirst (·.1) <| e.decl.traitUses.flatMap fun use =>
    use.traits.map fun name => (e.scope.resolve name, Comment.joinDocs use.comments)

end PhpHandbook.Hierarchy
