import Mathlib.Logic.Relation
import PhpHandbook.Hierarchy.Members
import PhpHandbook.Proofs.Numbering

/-!
# Members without a path

Members are collected along a path: a declaration that is already on it gives nothing, so that the
walk ends where declarations form a cycle.  Where they form no cycle the path does not matter.  A
diamond is walked twice, from two sides, and either walk finds all of it.  Then the members of a
declaration are determined by the members of those next to it, with no path in between.

The argument compares two walks over the same declarations with different paths.  Both take the same
steps as long as nothing that can still be reached is on one of the paths, and a step keeps that:
what it puts on the path cannot be reached again without a cycle.

## Main definitions

* `neighbours`, `Leads`: the used traits, the parent and the interfaces of a declaration.
* `AcyclicFrom`: no cycle can be reached from a declaration.
* `leftUnion`: several lists one after the other, each item unless its key is taken.

## Main statements

* `keepFirst_flatten`: keeping the first of each key is a left-biased union.
* `collectFrom_congr`: two paths off which everything lies lead to the same members.
* `members_eq_leftUnion`: methods, properties and constants as left-biased unions.
-/

namespace PhpHandbook.Hierarchy

open Declaration (ClassKind Name)
open Registry (ClassEntry lower)

/-! ### Left-biased unions -/

section Union

variable {α : Type} (key : α → String)

/-- An item at the end of a list, unless its key is taken. -/
def addNew (items : List α) (item : α) : List α :=
  if items.any (key · == key item) then items else items ++ [item]

/-- **The left-biased union** of several lists: their items in order, each unless its key is
taken. -/
def leftUnion (sources : List (List α)) : List α :=
  sources.foldl (fun items source => source.foldl (addNew key) items) []

theorem foldl_addNew (added items : List α) (seen : List String)
    (hseen : ∀ k, seen.contains k = items.any (key · == k)) :
    added.foldl (addNew key) items = items ++ keepFirstFrom key seen added := by
  induction added generalizing items seen with
  | nil => rw [List.foldl_nil, keepFirstFrom, List.append_nil]
  | cons a added ih =>
    rw [List.foldl_cons, keepFirstFrom, addNew, ← hseen]
    -- the keys seen so far are those of the items, so both sides take or leave the same item
    by_cases htaken : seen.contains (key a) = true
    · rw [if_pos htaken, if_pos htaken, ih items seen hseen]
    · rw [if_neg htaken, if_neg htaken, ih (items ++ [a]) (key a :: seen), List.append_assoc,
        List.singleton_append]
      intro k
      rw [List.contains_cons, List.any_append, hseen, List.any_cons, List.any_nil, Bool.or_false,
        Bool.or_comm, Bool.beq_comm]

/-- **Keeping the first of each key** is a left-biased union. -/
theorem keepFirst_flatten (sources : List (List α)) :
    keepFirst key sources.flatten = leftUnion key sources := by
  have hfold := foldl_addNew key sources.flatten [] [] fun k => rfl
  rw [List.nil_append] at hfold
  rw [keepFirst, ← hfold, List.foldl_flatten, leftUnion]

/-- Only the items and their order matter to a union. -/
theorem leftUnion_congr {sources sources' : List (List α)}
    (h : sources.flatten = sources'.flatten) : leftUnion key sources = leftUnion key sources' := by
  rw [← keepFirst_flatten, ← keepFirst_flatten, h]

theorem exists_mem_keepFirstFrom (items : List α) (seen : List String) {a : α} (ha : a ∈ items)
    (hseen : key a ∉ seen) : ∃ b ∈ keepFirstFrom key seen items, key b = key a := by
  induction items generalizing seen with
  | nil => cases ha
  | cons x items ih =>
    unfold keepFirstFrom
    by_cases hx : key x = key a
    · have hfree : ¬seen.contains (key x) = true := by simpa [hx] using hseen
      rw [if_neg hfree]
      exact ⟨x, List.mem_cons_self, hx⟩
    · have ha' : a ∈ items := (List.mem_cons.1 ha).resolve_left fun h => hx (h ▸ rfl)
      split
      · exact ih seen ha' hseen
      · obtain ⟨b, hb, hkey⟩ := ih (key x :: seen) ha' (by
          rw [List.mem_cons, not_or]
          exact ⟨Ne.symm hx, hseen⟩)
        exact ⟨b, List.mem_cons_of_mem x hb, hkey⟩

/-- Every item of a source has an item with its key in the union. -/
theorem exists_mem_leftUnion {sources : List (List α)} {source : List α}
    (hsource : source ∈ sources) {a : α} (ha : a ∈ source) :
    ∃ b ∈ leftUnion key sources, key b = key a := by
  rw [← keepFirst_flatten]
  exact exists_mem_keepFirstFrom key _ [] (List.mem_flatten.2 ⟨source, hsource, ha⟩) (by simp)

end Union

variable {reg : Registry} {α : Type}

/-! ### The graph of declarations -/

/-- The declarations next to a declaration: used traits, the parent, and interfaces. -/
def neighbours (e : reg.Entry) : List reg.Entry :=
  traits reg e.1 ++ (parent? reg e.1).toList ++ interfaceEntries reg e.1

/-- One declaration leads to another one next to it. -/
def Leads (e d : reg.Entry) : Prop :=
  d ∈ neighbours e

/-- One declaration leads to another one in any number of steps. -/
def Reaches : reg.Entry → reg.Entry → Prop :=
  Relation.ReflTransGen Leads

/-- **No cycle can be reached** from a declaration. -/
def AcyclicFrom (e : reg.Entry) : Prop :=
  ∀ d, Reaches e d → ¬Relation.TransGen Leads d d

/-- Everything that can be reached from a declaration lies off a path. -/
def OffPath (e : reg.Entry) (path : List String) : Prop :=
  ∀ d, Reaches e d → d.1.key ∉ path

theorem AcyclicFrom.leads {e d : reg.Entry} (h : AcyclicFrom e) (hd : Leads e d) : AcyclicFrom d :=
  fun x hx => h x (.head hd hx)

theorem offPath_nil (e : reg.Entry) : OffPath e [] :=
  fun _ _ => List.not_mem_nil

/-- **A step keeps everything off the path**: what it puts there would close a cycle. -/
theorem OffPath.leads {e d : reg.Entry} {path : List String} (h : OffPath e path)
    (hacyclic : AcyclicFrom e) (hd : Leads e d) : OffPath d (e.1.key :: path) := by
  intro x hx hmem
  rcases List.mem_cons.1 hmem with hkey | hmem
  · obtain rfl : x = e := Registry.entry_eq_of_key hkey
    exact hacyclic x .refl (.head' hd hx)
  · exact h x (.head hd hx) hmem

/-- Declarations with ranks that go down along every step form no cycle. -/
theorem acyclicFrom_of_rank (rank : reg.Entry → Nat)
    (h : ∀ e d : reg.Entry, Leads e d → rank d < rank e) (e : reg.Entry) : AcyclicFrom e := by
  intro d _ hcycle
  have hdown : ∀ x, Relation.TransGen Leads d x → rank x < rank d := by
    intro x hx
    induction hx with
    | single hstep => exact h _ _ hstep
    | tail _ hstep ih => exact Nat.lt_trans (h _ _ hstep) ih
  exact absurd (hdown d hcycle) (Nat.lt_irrefl _)

/-! ### Walks with different paths -/

namespace MemberRules

/-- What the members of a declaration are made of, given the members of those next to it. -/
def sources (rules : MemberRules reg α) (e : reg.Entry) (members : reg.Entry → List α) :
    List (List α) :=
  rules.own e :: (traits reg e.1).map (fun t => rules.fromTrait e t (members t))
    ++ (parent? reg e.1).toList.map (fun p => (members p).filter rules.isInherited)
    ++ (rules.interfaces e).map members

/-- The rules look at interfaces of a declaration only. -/
def Local (rules : MemberRules reg α) : Prop :=
  ∀ e, rules.interfaces e ⊆ interfaceEntries reg e.1

theorem sources_congr {rules : MemberRules reg α} (hlocal : rules.Local) {e : reg.Entry}
    {members members' : reg.Entry → List α} (h : ∀ d, Leads e d → members d = members' d) :
    rules.sources e members = rules.sources e members' := by
  have htraits : (traits reg e.1).map (fun t => rules.fromTrait e t (members t))
      = (traits reg e.1).map (fun t => rules.fromTrait e t (members' t)) :=
    List.map_congr_left fun t ht => by
      rw [h t (List.mem_append_left _ (List.mem_append_left _ ht))]
  have hparent : (parent? reg e.1).toList.map (fun p => (members p).filter rules.isInherited)
      = (parent? reg e.1).toList.map (fun p => (members' p).filter rules.isInherited) :=
    List.map_congr_left fun p hp => by
      rw [h p (List.mem_append_left _ (List.mem_append_right _ hp))]
  have hinterfaces : (rules.interfaces e).map members = (rules.interfaces e).map members' :=
    List.map_congr_left fun i hi => h i (List.mem_append_right _ (hlocal e hi))
  rw [sources, htraits, hparent, hinterfaces, sources]

end MemberRules

/-- One step of a collection. -/
theorem collectFrom_of_not_mem (rules : MemberRules reg α) {path : List String} {e : reg.Entry}
    (h : e.1.key ∉ path) :
    collectFrom rules path e
      = leftUnion rules.key (rules.sources e (collectFrom rules (e.1.key :: path))) := by
  rw [collectFrom, dif_neg h, ← keepFirst_flatten]
  simp only [MemberRules.sources, List.flatMap_def, List.flatten_append, List.flatten_cons,
    List.append_assoc, List.cons_append]

/-- **The path does not matter** as long as nothing that can be reached is on it. -/
theorem collectFrom_congr {rules : MemberRules reg α} (hlocal : rules.Local)
    {path path' : List String} {e : reg.Entry} (hacyclic : AcyclicFrom e) (h : OffPath e path)
    (h' : OffPath e path') : collectFrom rules path e = collectFrom rules path' e := by
  have hmem : e.1.key ∉ path := h e .refl
  rw [collectFrom_of_not_mem rules hmem, collectFrom_of_not_mem rules (h' e .refl)]
  refine congrArg _ (MemberRules.sources_congr hlocal fun d hd => ?_)
  -- both walks go on with one more key on their paths, and neither can meet it again
  exact collectFrom_congr hlocal (hacyclic.leads hd) (h.leads hacyclic hd) (h'.leads hacyclic hd)
termination_by reg.unvisited path
decreasing_by exact Registry.unvisited_cons_lt e.2 hmem

/-- **The members of a declaration** that leads to no cycle, in terms of the members of those next
to it. -/
theorem collectFrom_nil_eq {rules : MemberRules reg α} (hlocal : rules.Local) {e : reg.Entry}
    (hacyclic : AcyclicFrom e) :
    collectFrom rules [] e = leftUnion rules.key (rules.sources e (collectFrom rules [])) := by
  rw [collectFrom_of_not_mem rules List.not_mem_nil]
  refine congrArg _ (MemberRules.sources_congr hlocal fun d hd => ?_)
  exact collectFrom_congr hlocal (hacyclic.leads hd) ((offPath_nil e).leads hacyclic hd)
    (offPath_nil d)

/-! ### Methods, properties and constants -/

theorem methodRules_local : (methodRules reg).Local :=
  fun _ => List.Subset.refl _

theorem propertyRules_local : (propertyRules reg).Local :=
  fun _ => List.nil_subset _

theorem constantRules_local : (constantRules reg).Local :=
  fun _ => List.Subset.refl _

/-- What the methods of a declaration are made of: own methods; of each used trait the methods that
no rule excludes, and then those that a rule takes over under another name; the methods of the
parent that are not private; and the methods of each interface. -/
def methodSources (e : reg.Entry) : List (List (VisibleMethod reg)) :=
  [ownMethods e]
    ++ (traits reg e.1).flatMap (fun t =>
      [((methods reg t).filter fun m => !excludesTraitMethod e.1 t.1.name m.name).map
          (takeOver e.1 (traitAliases reg e.1) t.1.name),
        (traitAliases reg e.1).filterMap (takeOverAs? e.1 t.1.name (methods reg t))])
    ++ (parent? reg e.1).toList.map (fun p =>
      (methods reg p).filter fun m => m.visibility != .isPrivate)
    ++ (interfaceEntries reg e.1).map (methods reg)

/-- What the properties of a declaration are made of: own properties, those of each used trait as
its own, and those of the parent that are not private. -/
def propertySources (e : reg.Entry) : List (List (VisibleProperty reg)) :=
  [ownProperties e]
    ++ (traits reg e.1).map (fun t =>
      (properties reg t).map ({ · with declaringClass := e.1.name }))
    ++ (parent? reg e.1).toList.map (fun p =>
      (properties reg p).filter fun x => x.property.modifiers.effective != .isPrivate)

/-- What the constants of a declaration are made of: own cases and constants, those of each used
trait as its own, those of the parent that are not private, and those of each interface. -/
def constantSources (e : reg.Entry) : List (List (VisibleConstant reg)) :=
  [ownConstants e]
    ++ (traits reg e.1).map (fun t =>
      (constants reg t).map ({ · with declaringClass := e.1.name }))
    ++ (parent? reg e.1).toList.map (fun p =>
      (constants reg p).filter fun c => c.modifiers.effective != .isPrivate)
    ++ (interfaceEntries reg e.1).map (constants reg)

theorem flatten_flatMap_pair {β : Type} (xs : List β) (f g : β → List α) :
    (xs.flatMap fun x => [f x, g x]).flatten = (xs.map fun x => f x ++ g x).flatten := by
  induction xs with
  | nil => rfl
  | cons x xs ih =>
    rw [List.flatMap_cons, List.flatten_append, ih, List.map_cons, List.flatten_cons]
    simp only [List.flatten_cons, List.flatten_nil, List.append_nil]

theorem methods_eq {e : reg.Entry} (h : AcyclicFrom e) :
    methods reg e = leftUnion (fun m => lower m.name) (methodSources e) := by
  refine (collectFrom_nil_eq methodRules_local h).trans (leftUnion_congr _ ?_)
  -- the rules give one list for each trait, the sources two
  rw [methodSources, List.flatten_append, List.flatten_append, List.flatten_append,
    flatten_flatMap_pair, MemberRules.sources, List.flatten_append, List.flatten_append,
    List.flatten_cons, List.flatten_singleton]
  rfl

theorem properties_eq {e : reg.Entry} (h : AcyclicFrom e) :
    properties reg e = leftUnion (fun p => p.property.name.name) (propertySources e) := by
  refine (collectFrom_nil_eq propertyRules_local h).trans ?_
  rw [propertySources, MemberRules.sources]
  exact congrArg _ (List.append_nil _)

theorem constants_eq {e : reg.Entry} (h : AcyclicFrom e) :
    constants reg e = leftUnion (fun c => c.name) (constantSources e) :=
  collectFrom_nil_eq constantRules_local h

/-- **The members of a declaration need no path.**  Where the used traits, parents and interfaces
behind a declaration form no cycle, its methods, properties and constants are left-biased unions of
its own ones and those of the declarations next to it; methods are told apart without regard to
capital and small letters.  So no method is lost: every method of the parent that is not private,
and every method of an interface, has one of the same name on the declaration. -/
theorem members_eq_leftUnion (e : reg.Entry) (hacyclic : AcyclicFrom e) :
    methods reg e = leftUnion (fun m => lower m.name) (methodSources e) ∧
      properties reg e = leftUnion (fun p => p.property.name.name) (propertySources e) ∧
      constants reg e = leftUnion (fun c => c.name) (constantSources e) ∧
      (∀ p, parent? reg e.1 = some p → ∀ m ∈ methods reg p, m.visibility ≠ .isPrivate →
        ∃ m' ∈ methods reg e, lower m'.name = lower m.name) ∧
      ∀ i ∈ interfaceEntries reg e.1, ∀ m ∈ methods reg i,
        ∃ m' ∈ methods reg e, lower m'.name = lower m.name := by
  have hmethods := methods_eq hacyclic
  refine ⟨hmethods, properties_eq hacyclic, constants_eq hacyclic, ?_, ?_⟩
  · intro p hp m hm hvisible
    have hsource : (methods reg p).filter (fun m => m.visibility != .isPrivate)
        ∈ methodSources e := by
      refine List.mem_append_left _ (List.mem_append_right _ ?_)
      rw [hp]
      exact List.mem_singleton.2 rfl
    rw [hmethods]
    exact exists_mem_leftUnion (fun m => lower m.name) hsource
      (List.mem_filter.2 ⟨hm, by simpa using hvisible⟩)
  · intro i hi m hm
    have hsource : methods reg i ∈ methodSources e :=
      List.mem_append_right _ (List.mem_map_of_mem hi)
    rw [hmethods]
    exact exists_mem_leftUnion (fun m => lower m.name) hsource hm

/-- A declaration outside all namespaces, with public methods of the given names. -/
def sketch (kind : ClassKind) (name : String) (methods parents implements traits : List String) :
    ClassEntry where
  name := name
  space := ""
  origin := .project
  path := name ++ ".php"
  decl := {
    traitUses := [⟨traits.map (Name.ofText · ⟨0, 0⟩), [], [], ⟨0, 0⟩⟩]
    methods :=
      methods.map fun m => ⟨⟨m, ⟨0, 0⟩⟩, {}, [], none, false, true, none, ⟨0, 0⟩⟩
    kind, name := ⟨name, ⟨0, 0⟩⟩, modifiers := {}
    parents := parents.map (Name.ofText · ⟨0, 0⟩)
    implements := implements.map (Name.ofText · ⟨0, 0⟩)
    backingType := none, doc := none, span := ⟨0, 0⟩ }
  scope := ⟨"", []⟩

/-- A diamond: a class and its parent have the same interface. -/
def shapes : Registry where
  entries := [
    sketch .interface "Shape" ["area", "Draw"] [] [] [],
    sketch .trait "Paint" ["draw"] [] [] [],
    sketch .plainClass "Base" ["area"] [] ["Shape"] [],
    sketch .plainClass "Circle" ["radius"] ["Base"] ["Shape"] ["Paint"]]
  distinct := by decide +kernel
  formed := by decide +kernel

/-- The interface at the top of the diamond. -/
def shape : shapes.Entry :=
  ⟨_, List.mem_cons_self⟩

/-- The class at the bottom of the diamond. -/
def circle : shapes.Entry :=
  ⟨sketch .plainClass "Circle" ["radius"] ["Base"] ["Shape"] ["Paint"], by simp [shapes]⟩

/-- At the bottom of the diamond the members need no path, and the interface that is reached on two
ways gives all of its methods. -/
theorem members_circle :
    methods shapes circle = leftUnion (fun m => lower m.name) (methodSources circle) ∧
      ∃ m ∈ methods shapes circle, lower m.name = "draw" := by
  let rank (e : shapes.Entry) : Nat := (shapes.entries.map (·.key)).idxOf e.1.key
  have hdown : ∀ e ∈ shapes.entries.attach, ∀ d ∈ neighbours e, rank d < rank e := by
    decide +kernel
  have hacyclic : AcyclicFrom circle :=
    acyclicFrom_of_rank rank (fun e d => hdown e (List.mem_attach _ e) d) circle
  obtain ⟨hmethods, -, -, -, hinterfaces⟩ := members_eq_leftUnion circle hacyclic
  have hshape : shape ∈ interfaceEntries shapes circle.1 :=
    List.mem_filterMap.2 ⟨"Shape", by decide +kernel, Registry.find?_name shape⟩
  have hdraw : ∃ m ∈ methods shapes shape, lower m.name = "draw" := by decide +kernel
  obtain ⟨m, hm, hname⟩ := hdraw
  obtain ⟨m', hm', hname'⟩ := hinterfaces shape hshape m hm
  exact ⟨hmethods, m', hm', hname'.trans hname⟩

end PhpHandbook.Hierarchy
