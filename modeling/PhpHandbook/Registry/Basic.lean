import PhpHandbook.Declaration.Naming
import PhpHandbook.Registry.Scope

/-!
# The registry of classes

All class-like declarations of a program, in the order in which they were registered, found by
name without regard to capital and small letters.  The first declaration of a name stays; keys
are pairwise different at all times.  Every declaration is well formed: its name and its imports
are full names without a separator in front, because that is how they are read.

This is the registry of classes that the generator reflects on: a `ClassEntry` is one class-like
declaration with its scope, file and origin, `Registry.register` registers a source as a whole or
not at all, and `Registry.find?` is the lookup by name.
-/

namespace PhpHandbook.Registry

open Declaration (ClassLike ClassKind Fault NamespaceBlock)
open Source (beginsName)

/-! ### Names without a separator in front -/

theorem unrooted_of_beginsName {s : String} (h : beginsName s) : unrooted s = s := by
  unfold beginsName at h
  unfold unrooted
  cases hs : s.toList with
  | nil => simp [hs] at h
  | cons c cs =>
    have hc : (c == '\\') = false := by
      rw [hs] at h
      rw [beq_eq_false_iff_ne]
      rintro rfl
      exact absurd h (by simp [show Source.isNameStart '\\' = false by decide])
    rw [List.dropWhile_cons, hc]
    exact String.ext (by simp [hs])

/-- A name that begins like one has its own text in small letters as its key. -/
theorem classKey_of_beginsName {s : String} (h : beginsName s) : classKey s = lower s := by
  rw [classKey, unrooted_of_beginsName h]

theorem mem_setKey {α : Type} {key : String} {value : α} {p : String × α} :
    {pairs : List (String × α)} → p ∈ setKey key value pairs →
      p = (key, value) ∨ p ∈ pairs
  | [], h => by simpa [setKey] using h
  | (k, v) :: rest, h => by
    unfold setKey at h
    split at h
    · rcases List.mem_cons.1 h with rfl | h
      · exact .inl rfl
      · exact .inr (List.mem_cons_of_mem _ h)
    · rcases List.mem_cons.1 h with rfl | h
      · exact .inr (by simp)
      · rcases mem_setKey h with h | h
        · exact .inl h
        · exact .inr (List.mem_cons_of_mem _ h)

/-- A further import keeps the full names of a scope well begun. -/
theorem Scope.addImport_named {scope : Scope} {localName name : String}
    (h : ∀ i ∈ scope.imports, beginsName i.2) (hname : beginsName name) :
    ∀ i ∈ (scope.addImport localName name).imports, beginsName i.2 := by
  intro i hi
  rcases mem_setKey hi with rfl | hi
  · rwa [unrooted_of_beginsName hname]
  · exact h i hi

theorem Scope.foldl_addImport_named (items : List Declaration.Import)
    (hitems : ∀ i ∈ items, beginsName i.name) (scope : Scope)
    (h : ∀ i ∈ scope.imports, beginsName i.2) :
    ∀ i ∈ (items.foldl (fun scope i => scope.addImport i.localName i.name) scope).imports,
      beginsName i.2 := by
  induction items generalizing scope with
  | nil => exact h
  | cons item items ih =>
    exact ih (fun i hi => hitems i (List.mem_cons_of_mem item hi)) _
      (addImport_named h (hitems item (by simp)))

theorem Scope.foldl_addImport_space (items : List Declaration.Import) (scope : Scope) :
    (items.foldl (fun scope i => scope.addImport i.localName i.name) scope).space
      = scope.space := by
  induction items generalizing scope with
  | nil => rfl
  | cons item items ih => exact ih _

/-- The imports of a block that is named are full names. -/
theorem Scope.ofBlock_named {block : NamespaceBlock} (h : block.Named) :
    ∀ i ∈ (Scope.ofBlock block).imports, beginsName i.2 :=
  foldl_addImport_named _ (fun i hi => h.imports i (List.mem_filter.1 hi).1) _ (by simp)

theorem Scope.ofBlock_space (block : NamespaceBlock) :
    (Scope.ofBlock block).space = block.name.getD "" :=
  foldl_addImport_space _ _

/-! ### Declarations -/

/-- Where a declaration comes from. -/
inductive Origin where
  /-- The documented project. -/
  | project
  /-- Code that is linked to and not documented. -/
  | reference
  /-- The language itself. -/
  | builtin
deriving DecidableEq, Repr

/-- A registered declaration. -/
structure ClassEntry where
  /-- The full name, without a leading separator. -/
  name : String
  /-- The namespace; empty outside all namespaces. -/
  space : String
  origin : Origin
  /-- The path of the source file. -/
  path : String
  decl : ClassLike
  /-- What names in the declaration are completed with. -/
  scope : Scope
deriving Repr

namespace ClassEntry

/-- The key under which the declaration is found. -/
def key (e : ClassEntry) : String :=
  lower e.name

/-- The name without its namespace. -/
def basename (e : ClassEntry) : String :=
  e.decl.name.name

/-- What kind of declaration it is. -/
def kind (e : ClassEntry) : ClassKind :=
  e.decl.kind

/-- **A well-formed declaration**: its parts fit together, and its names are full names. -/
structure WellFormed (e : ClassEntry) : Prop where
  /-- The name is the name without its namespace, completed with the namespace. -/
  name_eq : e.name = e.scope.qualify e.basename
  /-- The namespace is that of the scope. -/
  space_eq : e.space = e.scope.space
  /-- There is no separator in front of the name. -/
  named : beginsName e.name
  /-- There is no separator in front of the full name of an import. -/
  imports : ∀ i ∈ e.scope.imports, beginsName i.2

instance (e : ClassEntry) : Decidable e.WellFormed :=
  decidable_of_iff (e.name = e.scope.qualify e.basename ∧ e.space = e.scope.space ∧
      beginsName e.name ∧ ∀ i ∈ e.scope.imports, beginsName i.2)
    ⟨fun ⟨hname, hspace, hnamed, himports⟩ => ⟨hname, hspace, hnamed, himports⟩,
      fun h => ⟨h.name_eq, h.space_eq, h.named, h.imports⟩⟩

/-- A well-formed declaration is found under its own name. -/
theorem WellFormed.classKey_name {e : ClassEntry} (h : e.WellFormed) : classKey e.name = e.key :=
  classKey_of_beginsName h.named

end ClassEntry

end PhpHandbook.Registry

namespace PhpHandbook

open Registry (ClassEntry Origin Scope classKey lower)
open Declaration (ClassLike Fault SourceFile NamespaceBlock)

/-- **A registry.** -/
structure Registry where
  /-- The declarations in the order of registration. -/
  entries : List ClassEntry
  /-- No two declarations have the same key. -/
  distinct : (entries.map (·.key)).Nodup
  /-- Every declaration is well formed. -/
  formed : ∀ e ∈ entries, e.WellFormed

namespace Registry

/-- The registry of nothing. -/
def empty : Registry :=
  ⟨[], List.nodup_nil, by simp⟩

/-- A declaration of the registry. -/
abbrev Entry (reg : Registry) : Type :=
  { e : ClassEntry // e ∈ reg.entries }

/-- The declaration with the given key. -/
def findKey? (reg : Registry) (key : String) : Option reg.Entry :=
  match h : reg.entries.find? (·.key == key) with
  | some e => some ⟨e, List.mem_of_find?_eq_some h⟩
  | none => none

/-- **The declaration of a name**, with or without separators in front. -/
def find? (reg : Registry) (name : String) : Option reg.Entry :=
  reg.findKey? (classKey name)

/-- Whether a name is declared. -/
def contains (reg : Registry) (name : String) : Bool :=
  (reg.find? name).isSome

/-- The number of declarations. -/
def size (reg : Registry) : Nat :=
  reg.entries.length

theorem key_of_findKey? {reg : Registry} {key : String} {e : reg.Entry}
    (h : reg.findKey? key = some e) : e.1.key = key := by
  unfold findKey? at h
  split at h
  · next x hx =>
    cases h
    simpa using List.find?_some hx
  · cases h

theorem not_mem_of_findKey? {reg : Registry} {key : String} (h : reg.findKey? key = none) :
    key ∉ reg.entries.map (·.key) := by
  unfold findKey? at h
  split at h
  · cases h
  · next hnone =>
    intro hmem
    obtain ⟨e, he, rfl⟩ := List.mem_map.1 hmem
    exact List.find?_eq_none.1 hnone e he (by simp)

/-- Adds a declaration at the end, unless its key is taken. -/
def add (reg : Registry) (e : ClassEntry) (he : e.WellFormed) : Registry :=
  match h : reg.findKey? e.key with
  | some _ => reg
  | none =>
    { entries := reg.entries ++ [e]
      distinct := by
        rw [List.map_append, List.nodup_append]
        refine ⟨reg.distinct, by simp, ?_⟩
        intro a ha b hb
        simp only [List.map_cons, List.map_nil, List.mem_singleton] at hb
        subst hb
        exact fun hab => not_mem_of_findKey? h (hab ▸ ha)
      formed := by
        intro x hx
        rcases List.mem_append.1 hx with hx | hx
        · exact reg.formed x hx
        · exact List.mem_singleton.1 hx ▸ he }

/-- The declaration of a class in a scope. -/
def entryOf (path : String) (origin : Origin) (scope : Scope) (decl : ClassLike) : ClassEntry :=
  { name := scope.qualify decl.name.name, space := scope.space, origin, path, decl, scope }

/-- The declarations of a file in source order. -/
def entriesOf (path : String) (origin : Origin) (file : SourceFile) : List ClassEntry :=
  file.blocks.flatMap fun block => block.classes.map (entryOf path origin (Scope.ofBlock block))

theorem entryOf_wellFormed {path : String} {origin : Origin} {block : NamespaceBlock}
    {decl : ClassLike} (h : block.Named) (hdecl : decl ∈ block.classes) :
    (entryOf path origin (Scope.ofBlock block) decl).WellFormed := by
  refine ⟨rfl, rfl, ?_, Scope.ofBlock_named h⟩
  show Source.beginsName ((Scope.ofBlock block).qualify decl.name.name)
  unfold Scope.qualify
  split
  · exact h.classes decl hdecl
  · next hspace =>
    rw [Scope.ofBlock_space] at hspace ⊢
    cases hname : block.name with
    | none => simp [hname] at hspace
    | some space =>
      exact Source.beginsName_append (Source.beginsName_append (h.name space (by simp [hname])) _) _

/-- The declarations of a file that is named are well formed. -/
theorem entriesOf_wellFormed {path : String} {origin : Origin} {file : SourceFile}
    (h : ∀ b ∈ file.blocks, b.Named) : ∀ e ∈ entriesOf path origin file, e.WellFormed := by
  intro e he
  obtain ⟨block, hblock, he⟩ := List.mem_flatMap.1 he
  obtain ⟨decl, hdecl, rfl⟩ := List.mem_map.1 he
  exact entryOf_wellFormed (h block hblock) hdecl

/-- Adds declarations one after the other; gives the names of those that were added. -/
def addAll (reg : Registry) :
    (es : List ClassEntry) → (∀ e ∈ es, e.WellFormed) → List String × Registry
  | [], _ => ([], reg)
  | e :: es, h =>
    have hes : ∀ x ∈ es, x.WellFormed := fun x hx => h x (List.mem_cons_of_mem e hx)
    if (reg.findKey? e.key).isSome then reg.addAll es hes
    else
      let (names, reg) := (reg.add e (h e List.mem_cons_self)).addAll es hes
      (e.name :: names, reg)

/-- **Registers a source text**: gives the names that were added, or what is wrong with it. -/
def register (reg : Registry) (path source : String) (origin : Origin) :
    Except (List Fault) (List String × Registry) :=
  match h : (Declaration.parse source.toList).outcome with
  | .ok file =>
    .ok (reg.addAll (entriesOf path origin file) (entriesOf_wellFormed (Declaration.parse_named h)))
  | .error faults => .error faults

/-! ### Visiting declarations

A walk along the declarations keeps the keys on its path.  The number of declarations off the
path goes down with each new one, so every walk ends, also where declarations form a cycle. -/

/-- The number of declarations whose key is not on the path. -/
def unvisited (reg : Registry) (path : List String) : Nat :=
  reg.entries.countP fun e => !path.contains e.key

theorem unvisited_cons_lt {reg : Registry} {path : List String} {e : ClassEntry}
    (he : e ∈ reg.entries) (h : ¬e.key ∈ path) :
    reg.unvisited (e.key :: path) < reg.unvisited path := by
  unfold unvisited
  generalize reg.entries = entries at he
  induction entries with
  | nil => cases he
  | cons x xs ih =>
    have hmono : xs.countP (fun e' => !(e.key :: path).contains e'.key)
        ≤ xs.countP (fun e' => !path.contains e'.key) := by
      refine List.countP_mono_left fun y _ hy => ?_
      simp_all
    rw [List.countP_cons, List.countP_cons]
    rcases List.mem_cons.1 he with rfl | hxs
    · have h2 : (!path.contains e.key) = true := by simpa using h
      simp only [List.contains_cons, beq_self_eq_true, Bool.true_or, Bool.not_true,
        Bool.false_eq_true, if_false, h2, if_true]
      simp only [List.contains_cons] at hmono
      omega
    · have := ih hxs
      have hx : (if (!(e.key :: path).contains x.key) = true then 1 else 0)
          ≤ (if (!path.contains x.key) = true then 1 else 0) := by
        split <;> split <;> simp_all
      omega

theorem unvisited_append_le (reg : Registry) (path : List String) (key : String) :
    reg.unvisited (path ++ [key]) ≤ reg.unvisited path := by
  refine List.countP_mono_left fun e _ he => ?_
  simp_all

theorem unvisited_append_lt {reg : Registry} {path : List String} {key : String} {e : reg.Entry}
    (hkey : reg.findKey? key = some e) (h : ¬key ∈ path) :
    reg.unvisited (path ++ [key]) < reg.unvisited path := by
  have he : e.1.key = key := key_of_findKey? hkey
  have hlt : reg.unvisited (e.1.key :: path) < reg.unvisited path :=
    unvisited_cons_lt e.2 (he ▸ h)
  have hperm : reg.unvisited (path ++ [key]) = reg.unvisited (e.1.key :: path) := by
    refine List.countP_congr fun y _ => ?_
    simp [he, and_comm]
  omega

end Registry

end PhpHandbook
