import PhpHandbook.Handbook.Links

/-!
# The outline

The items of the handbook sorted by namespace.  Each section is a namespace with its
subnamespaces and its own items, both in ascending order of their names.

This is the tree of namespaces of the generator: `Section` is a node of it, `Outline` the whole,
`Outline.insert` files one descriptor, `Outline.find?` is the lookup of a namespace, and
`Outline.all` the iteration in the order of the pages.
-/

namespace PhpHandbook.Handbook

/-- Changes the value of a key in an ascending list of pairs, where the key may be missing. -/
def alter {α : Type} (key : String) (f : Option α → α) :
  List (String × α) → List (String × α)
  | [] => [(key, f none)]
  | (k, v) :: rest =>
    if k = key then (k, f (some v)) :: rest
    else if key < k then (key, f none) :: (k, v) :: rest
    else (k, v) :: alter key f rest

/-- The value of a key. -/
def valueAt? {α : Type} (key : String) (pairs : List (String × α)) : Option α :=
  (pairs.find? (·.1 == key)).map (·.2)

/-- A namespace and everything in it. -/
inductive Section (α : Type) where
  | mk (name : String) (sections : List (String × Section α)) (items : List (String × α))

namespace Section

variable {α : Type}

/-- The full name of the namespace; empty outside all namespaces. -/
def name : Section α → String
  | .mk name _ _ => name

/-- The subnamespaces by their last parts, in ascending order. -/
def sections : Section α → List (String × Section α)
  | .mk _ sections _ => sections

/-- The items of the namespace itself by their names, in ascending order. -/
def items : Section α → List (String × α)
  | .mk _ _ items => items

/-- The last part of the name. -/
def basename (s : Section α) : String :=
  Text.lastPart '\\' s.name

/-- Whether there is nothing in the namespace. -/
def isEmpty (s : Section α) : Bool :=
  s.sections.isEmpty && s.items.isEmpty

/-- The name of a subnamespace. -/
def subname (name segment : String) : String :=
  if name.isEmpty then segment else name ++ "\\" ++ segment

/-- Places an item below a section, along the parts of its namespace. -/
def insert (item : String) (value : α) : List String → Section α → Section α
  | [], .mk name sections items => .mk name sections (alter item (fun _ => value) items)
  | segment :: path, .mk name sections items =>
    .mk name
      (alter segment
        (fun old => insert item value path (old.getD (.mk (subname name segment) [] []))) sections)
      items

/-- The section at the end of a path. -/
def find? : List String → Section α → Option (Section α)
  | [], s => some s
  | segment :: path, s => (valueAt? segment s.sections).bind (find? path)

mutual

/-- All items, those of subnamespaces first. -/
def all : Section α → List α
  | .mk _ sections items => allIn sections ++ items.map (·.2)

/-- All items of several sections. -/
def allIn : List (String × Section α) → List α
  | [] => []
  | (_, s) :: rest => s.all ++ allIn rest

end

end Section

/-- **An outline**, with the number of its items. -/
structure Outline (α : Type) where
  root : Section α := .mk "" [] []
  size : Nat := 0

namespace Outline

variable {α : Type}

/-- The parts of a namespace. -/
def pathOf (space : String) : List String :=
  if space.isEmpty then [] else Text.split '\\' space

/-- **Places an item**; one with the same namespace and name takes the place of an earlier one. -/
def insert (outline : Outline α) (space item : String) (value : α) : Outline α :=
  let path := pathOf space
  let isThere := (outline.root.find? path).any fun s => (valueAt? item s.items).isSome
  { root := outline.root.insert item value path
    size := if isThere then outline.size else outline.size + 1 }

/-- The section of a namespace, given with or without separators around it. -/
def find? (outline : Outline α) (space : String) : Option (Section α) :=
  outline.root.find? (pathOf (bare space))

/-- All items, those of subnamespaces first. -/
def all (outline : Outline α) : List α :=
  outline.root.all

end Outline

end PhpHandbook.Handbook
