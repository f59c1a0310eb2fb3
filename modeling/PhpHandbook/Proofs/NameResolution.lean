import Mathlib.Data.List.DropRight
import PhpHandbook.Proofs.Inquiries

/-!
# Names in comments and native names

The same class name may stand in a comment and in a native type.  The two are resolved by rules of
their own.  In a comment an exact name comes first, then the imports that lead somewhere, then the
namespace; in a native type the imports come before the namespace, and there is no other choice.
Still the two agree wherever the native name is that of a class and no class of exactly the written
name comes in between.

What has to be shown is that leaving out imports that lead nowhere never changes the first import
that counts.  A native name that was found through an import makes that import lead somewhere: it
names the class itself, or a namespace with the class in it (`isKnown_of_find?`).

## Main definitions

* `isRelative`: a name that begins with the word for the current namespace.
* `Resolver.ofEntry`: the resolver that every sound run finds for a declaration.
* `writtenName`, `nativeName`: a name resolved by the rules of comments and by the native rules.

## Main statements

* `Resolver.find?_complete`: the full name in a comment is that of the native class.
* `writtenName_eq_nativeName`: both lead to the same chapter, also later on.
-/

namespace PhpHandbook.Registry

open Declaration (Name)

/-- Whether a name is relative to the current namespace: `namespace\Foo`. -/
def isRelative (name : String) : Bool :=
  (splitFirst name).2.isSome && sameText (splitFirst name).1 "namespace"

/-! ### Texts -/

theorem lower_append (a b : String) : lower (a ++ b) = lower a ++ lower b := by
  refine String.ext ?_
  simp only [lower, String.toList_map, String.toList_append, List.map_append]

theorem unrooted_unrooted (name : String) : unrooted (unrooted name) = unrooted name := by
  unfold unrooted
  rw [String.toList_ofList, List.dropWhile_idempotent]

/-- Separators in front of a name do not matter where it is looked up. -/
theorem find?_unrooted {reg : Registry} (name : String) :
    reg.find? (unrooted name) = reg.find? name := by
  rw [find?, find?, classKey, classKey, unrooted_unrooted]

/-- A name without a separator is its own first part. -/
theorem splitFirst_of_not_mem {name : String} (h : '\\' ∉ name.toList) :
    splitFirst name = (name, none) := by
  have hdrop : name.toList.dropWhile (· != '\\') = [] := by
    rw [List.dropWhile_eq_nil_iff]
    intro c hc
    rw [bne_iff_ne]
    rintro rfl
    exact h hc
  simp only [splitFirst, hdrop]

/-- A name with a separator has something after its first part. -/
theorem splitFirst_of_mem {name : String} (h : '\\' ∈ name.toList) :
    ∃ rest, (splitFirst name).2 = some rest := by
  cases hdrop : name.toList.dropWhile (· != '\\') with
  | nil =>
    rw [List.dropWhile_eq_nil_iff] at hdrop
    exact absurd (hdrop '\\' h) (by decide)
  | cons c rest => exact ⟨String.ofList rest, by simp only [splitFirst, hdrop]⟩

theorem unrooted_of_head? {name : String} (h : name.toList.head? ≠ some '\\') :
    unrooted name = name := by
  unfold unrooted
  rw [List.dropWhile_beq_eq_self_of_head?_ne h, String.ofList_toList]

/-! ### Names through imports -/

/-- What imports make of a name: its first part may be a local name. -/
def importedName? (imports : List (String × String)) (name : String) : Option String :=
  (imports.find? (sameText ·.1 (splitFirst name).1)).map fun i =>
    match (splitFirst name).2 with
    | some rest => i.2 ++ "\\" ++ rest
    | none => i.2

/-- The first import is found under its own local name. -/
theorem Scope.imported?_self (space name full : String) (imports : List (String × String)) :
    Scope.imported? ⟨space, (name, full) :: imports⟩ name = some full := by
  have hsame : sameText name name = true := beq_self_eq_true _
  simp [imported?, hsame]

theorem ofText_of_head? {name : String} (h : name.toList.head? ≠ some '\\')
    (span : Source.Span) :
    Name.ofText name span
      = ⟨name, if name.toList.contains '\\' then .qualified else .unqualified, span⟩ := by
  unfold Name.ofText
  split
  · next cs hcs => exact absurd (by rw [hcs]; rfl) h
  · rfl

/-- **The native rules**, for a name that is neither rooted nor relative: unless it stays as it is,
the imports come first and then the namespace. -/
theorem Scope.resolve_ofText {name : String} (hhead : name.toList.head? ≠ some '\\')
    (hrelative : isRelative name = false) (scope : Scope) (span : Source.Span) :
    scope.resolve (.ofText name span) = name ∨
      scope.resolve (.ofText name span)
        = (importedName? scope.imports name).getD (scope.qualify name) := by
  by_cases hmem : '\\' ∈ name.toList
  · right
    obtain ⟨rest, hrest⟩ := splitFirst_of_mem hmem
    have hfirst : sameText (splitFirst name).1 "namespace" = false := by
      simpa [isRelative, hrest] using hrelative
    rw [ofText_of_head? hhead, if_pos (by simpa using hmem)]
    simp only [resolve, resolveQualified, imported?, importedName?, hfirst, hrest,
      Bool.false_eq_true, if_false]
    cases scope.imports.find? (sameText ·.1 (splitFirst name).1) <;> rfl
  · rw [ofText_of_head? hhead, if_neg (by simpa using hmem)]
    by_cases hreserved : isReserved name = true
    · left
      simp only [resolve, hreserved, if_true]
    · right
      simp only [resolve, hreserved, if_false, Bool.false_eq_true, imported?, importedName?,
        splitFirst_of_not_mem hmem]

/-- A rooted name is looked up as it is written. -/
theorem find?_resolve_of_rooted {reg : Registry} {name : String}
    (hhead : name.toList.head? = some '\\') (scope : Scope) (span : Source.Span) :
    reg.find? (scope.resolve (.ofText name span)) = reg.find? name := by
  obtain ⟨cs, hcs⟩ := List.head?_eq_some_iff.1 hhead
  have hname : Name.ofText name span = ⟨String.ofList cs, .rooted, span⟩ := by
    simp only [Name.ofText, hcs]
  have hkey : unrooted (String.ofList cs) = unrooted name := by
    unfold unrooted
    rw [hcs, String.toList_ofList, List.dropWhile_cons_of_pos (by rfl)]
  rw [hname]
  show reg.find? (String.ofList cs) = _
  rw [find?, find?, classKey, classKey, hkey]

end PhpHandbook.Registry

namespace PhpHandbook.Hierarchy

open Registry (importedName? lower lower_append sameText splitFirst)
open Source (beginsName)

variable {reg : Registry}

/-! ### Imports that lead somewhere -/

/-- The namespace in front of a registered class leads somewhere. -/
theorem isKnown_of_find? {space rest : String} (hspace : beginsName space) {s : reg.Entry}
    (h : reg.find? (space ++ "\\" ++ rest) = some s) : isKnown reg space = true := by
  have hbegins : beginsName (space ++ "\\" ++ rest) :=
    Source.beginsName_append (Source.beginsName_append hspace _) _
  have hkey : s.1.key = lower space ++ "\\" ++ lower rest := by
    rw [Registry.key_of_find? h, Registry.classKey_of_beginsName hbegins, lower_append,
      lower_append]
    rw [show lower "\\" = "\\" by decide +kernel]
  have hprefix : (lower space ++ "\\").toList <+: s.1.key.toList := by
    rw [hkey, String.toList_append (s := lower space ++ "\\")]
    exact List.prefix_append _ _
  unfold isKnown
  rw [Bool.or_eq_true, List.any_eq_true]
  exact .inr ⟨s.1, s.2, List.isPrefixOf_iff_prefix.2 hprefix⟩

/-- **Leaving out imports that lead nowhere** does not change what a registered class is imported
as. -/
theorem importedName?_filter {imports : List (String × String)}
    (hbegins : ∀ i ∈ imports, beginsName i.2) {name full : String}
    (himported : importedName? imports name = some full) {s : reg.Entry}
    (hfull : reg.find? full = some s) :
    importedName? (imports.filter fun i => isKnown reg i.2) name = some full := by
  obtain ⟨i, hi, hexpand⟩ := Option.map_eq_some_iff.1 himported
  have hknown : isKnown reg i.2 = true := by
    cases hrest : (splitFirst name).2 with
    | none =>
      rw [hrest] at hexpand
      obtain rfl : i.2 = full := hexpand
      rw [isKnown, Registry.contains, hfull, Option.isSome_some, Bool.true_or]
    | some rest =>
      rw [hrest] at hexpand
      obtain rfl : i.2 ++ "\\" ++ rest = full := hexpand
      exact isKnown_of_find? (hbegins i (List.mem_of_find?_eq_some hi)) hfull
  -- the imports in front of the first one that matches do not match, kept or not
  obtain ⟨hsame, before, after, rfl, hbefore⟩ := List.find?_eq_some_iff_append.1 hi
  have hfind : ((before ++ i :: after).filter fun i => isKnown reg i.2).find?
      (sameText ·.1 (splitFirst name).1) = some i := by
    refine List.find?_eq_some_iff_append.2 ⟨hsame, before.filter (fun i => isKnown reg i.2),
      after.filter (fun i => isKnown reg i.2), ?_, ?_⟩
    · rw [List.filter_append, List.filter_cons, if_pos hknown]
    · exact fun j hj => hbefore j (List.mem_of_mem_filter hj)
  rw [importedName?, hfind, Option.map_some, hexpand]

theorem importedName?_filter_eq_none {imports : List (String × String)} {name : String}
    (h : importedName? imports name = none) (p : String × String → Bool) :
    importedName? (imports.filter p) name = none := by
  have hnone : ∀ i ∈ imports, ¬sameText i.1 (splitFirst name).1 = true :=
    List.find?_eq_none.1 (Option.map_eq_none_iff.1 h)
  refine Option.map_eq_none_iff.2 (List.find?_eq_none.2 fun i hi => ?_)
  exact hnone i (List.mem_of_mem_filter hi)

end PhpHandbook.Hierarchy

namespace PhpHandbook.Handbook

open Declaration (Name TypeHint)
open DocBlock (Document)
open Hierarchy (surroundings)
open Registry (ClassEntry Scope importedName? isRelative sameText splitFirst unrooted)
open Source (Span)

variable {reg : Registry}

/-! ### Full names -/

/-- The resolver of a declaration with the given templates, as every sound run finds it. -/
def Resolver.ofEntry (e : reg.Entry) (templates : List String) : Resolver :=
  ⟨e.1, surroundings reg e.1, templates⟩

/-- **The full name of a name in a comment** is that of the class that the native rules lead to,
unless the written name is exactly that of another class. -/
theorem Resolver.find?_complete (e : reg.Entry) (templates : List String) {name : String}
    (hrelative : isRelative name = false) (span : Span) {s : reg.Entry}
    (hnative : reg.find? (e.1.scope.resolve (.ofText name span)) = some s)
    (hexact : ∀ s', reg.find? (unrooted name) = some s' → s' = s) :
    reg.find? ((ofEntry e templates).complete reg (unrooted name)) = some s := by
  have hformed := reg.formed e.1 e.2
  unfold complete
  cases hraw : reg.find? (unrooted name) with
  | some s' =>
    -- a class of exactly the written name comes first, and it is the native one
    obtain rfl : s' = s := hexact s' hraw
    exact Registry.find?_name s'
  | none =>
    have hname : reg.find? name = none := by rw [← Registry.find?_unrooted, hraw]
    -- names that the native rules leave as they are would have been found before
    by_cases hhead : name.toList.head? = some '\\'
    · rw [Registry.find?_resolve_of_rooted hhead, hname] at hnative
      cases hnative
    · rw [Registry.unrooted_of_head? hhead]
      rcases Registry.Scope.resolve_ofText hhead hrelative e.1.scope span with hsame | hrules
      · rw [hsame, hname] at hnative
        cases hnative
      · rw [hrules] at hnative
        cases himported : importedName? e.1.scope.imports name with
        | some full =>
          rw [himported, Option.getD_some] at hnative
          have hexpand : (ofEntry e templates).expandImport? name = some full :=
            Hierarchy.importedName?_filter hformed.imports himported hnative
          simp only [hexpand, Option.some_or, Option.getD_some]
          exact hnative
        | none =>
          have hexpand : (ofEntry e templates).expandImport? name = none :=
            Hierarchy.importedName?_filter_eq_none himported _
          rw [himported, Option.getD_none, Registry.Scope.qualify] at hnative
          by_cases hspace : e.1.scope.space.isEmpty = true
          · rw [if_pos hspace, hname] at hnative
            cases hnative
          · rw [if_neg hspace] at hnative
            have hsibling : (ofEntry e templates).sibling? reg name = some s.1.name := by
              show (if e.1.space.isEmpty then none
                else (reg.find? (e.1.space ++ "\\" ++ name)).map (·.1.name)) = some s.1.name
              rw [hformed.space_eq, if_neg hspace, hnative, Option.map_some]
            simp only [hexpand, hsibling, Option.none_or, Option.getD_some]
            exact Registry.find?_name s

/-! ### The chapters they lead to -/

/-- A name resolved at a declaration as one in a comment. -/
def writtenName (e : reg.Entry) (templates : List String) (doc : Option Document) (name : String) :
    Gather reg ResolvedType := do
  let r ← resolverWith e templates
  r.resolveName doc name []

/-- A name resolved at a declaration as a native type. -/
def nativeName (e : reg.Entry) (templates : List String) (name : String) (span : Span) :
    Gather reg ResolvedType := do
  let r ← resolverWith e templates
  r.resolveHint (.named (.ofText name span) span)

/-- In a sound run the resolver of a declaration is the one it has, and no chapter is opened. -/
theorem Gather.gives_resolverWith {contents : Contents reg} (e : reg.Entry)
    (templates : List String) :
    Gather.Gives contents (resolverWith e templates) (Resolver.ofEntry e templates) :=
  (gives_surroundingsOf e).bind (.pure _)

/-- A reference to a registered class depends on the class only. -/
theorem reference_eq_of_find? {name name' : String} {s : reg.Entry} (h : reg.find? name = some s)
    (h' : reg.find? name' = some s) (generics : List ResolvedType) :
    reference name generics = (reference name' generics : Gather reg ResolvedType) := by
  simp only [reference, h, h']

/-- What is done with the resolver of a declaration in a sound run. -/
theorem run_resolverWith_bind {run : Run reg} (h : run.Sound) (e : reg.Entry)
    (templates : List String) (k : Resolver → Gather reg ResolvedType) :
    (resolverWith e templates >>= k).run run
      = (k (Resolver.ofEntry e templates)).run ((resolverWith e templates).run run).2 := by
  rw [← (Gather.gives_resolverWith e templates run h rfl).1]
  rfl

theorem nativeName_of_sound {run : Run reg} (h : run.Sound) (e : reg.Entry)
    (templates : List String) (name : String) (span : Span) :
    (nativeName e templates name span).run run
      = (reference (e.1.scope.resolve (.ofText name span)) []).run
          ((resolverWith e templates).run run).2 := by
  rw [nativeName, run_resolverWith_bind h, Resolver.resolveHint]
  rfl

/-- The class behind a native name that is a reference. -/
theorem exists_of_nativeName {run : Run reg} (h : run.Sound) {e : reg.Entry}
    {templates : List String} {name : String} {span : Span} {id : ChapterId} {full : String}
    (hnative : ((nativeName e templates name span).run run).1 = .linked id full []) :
    ∃ s : reg.Entry, reg.find? (e.1.scope.resolve (.ofText name span)) = some s ∧
      s.1.name = full := by
  rw [nativeName_of_sound h] at hnative
  generalize ((resolverWith e templates).run run).2 = run' at hnative
  unfold reference at hnative
  cases hfind : reg.find? (e.1.scope.resolve (.ofText name span)) with
  | none =>
    rw [hfind] at hnative
    cases hnative
  | some s =>
    rw [hfind] at hnative
    injection hnative with _ hname
    exact ⟨s, rfl, hname⟩

/-- **A reference to a registered class** leads to its chapter, which is opened if need be. -/
theorem reference_of_sound {run : Run reg} (h : run.Sound) (s : reg.Entry)
    (generics : List ResolvedType) :
    ((reference s.1.name generics).run run).2.Sound ∧
      ∃ c, ((reference s.1.name generics).run run).1 = .linked c.id s.1.name generics ∧
        ((reference s.1.name generics).run run).2.contents.get? c.id = some c ∧
        c.entry = s ∧ run.contents ≤ ((reference s.1.name generics).run run).2.contents := by
  rw [reference, Registry.find?_name]
  obtain ⟨hentered, hle, hget, hentry⟩ := h.contents.enter s
  exact ⟨h.withContents hentered hle, (run.contents.enter s.1.name s).1, rfl, hget, hentry, hle⟩

/-- **A native name of a registered class** leads to its chapter. -/
theorem nativeName_of_find? {run : Run reg} (h : run.Sound) {e : reg.Entry}
    (templates : List String) {name : String} {span : Span} {s : reg.Entry}
    (hfind : reg.find? (e.1.scope.resolve (.ofText name span)) = some s) :
    ((nativeName e templates name span).run run).2.Sound ∧
      ∃ c, ((nativeName e templates name span).run run).1 = .linked c.id s.1.name [] ∧
        ((nativeName e templates name span).run run).2.contents.get? c.id = some c ∧
        c.entry = s ∧
        run.contents ≤ ((nativeName e templates name span).run run).2.contents := by
  obtain ⟨-, hsound, hcontents⟩ := Gather.gives_resolverWith e templates run h rfl
  rw [nativeName_of_sound h, reference_eq_of_find? hfind (Registry.find?_name s), ← hcontents]
  exact reference_of_sound hsound s []

/-- In a sound run both ways of resolving a name lead to the same answer and the same run. -/
theorem writtenName_of_sound {run : Run reg} (h : run.Sound) {e : reg.Entry}
    {templates : List String} {doc : Option Document} {name : String} {span : Span}
    (hrelative : isRelative name = false)
    (hbound :
      ∀ n ∈ [unrooted name, (Resolver.ofEntry e templates).complete reg (unrooted name)],
        (Resolver.ofEntry e templates).isBound doc n = false)
    {s : reg.Entry} (hnative : reg.find? (e.1.scope.resolve (.ofText name span)) = some s)
    (hexact : ∀ s', reg.find? (unrooted name) = some s' → s' = s) :
    (writtenName e templates doc name).run run = (nativeName e templates name span).run run := by
  have hfull := Resolver.find?_complete e templates hrelative span hnative hexact
  have hraw : (Resolver.ofEntry e templates).isBound doc (unrooted name) = false :=
    hbound _ (by simp)
  have hcomplete : (Resolver.ofEntry e templates).isBound doc
      ((Resolver.ofEntry e templates).complete reg (unrooted name)) = false :=
    hbound _ (by simp)
  rw [nativeName_of_sound h, ← reference_eq_of_find? hfull hnative, writtenName,
    run_resolverWith_bind h, Resolver.resolveName]
  simp only [hraw, hcomplete, Bool.or_self, Bool.false_eq_true, if_false]

/-- **Names in comments and native names agree.**  After any sequence of inquiries, take a name that
is not relative, at any declaration, and that is not the name of a template, neither as it is
written nor in full.  If the native rules lead to a chapter, and no other class has exactly the
written name, then the rules for comments lead to the same chapter, with the same number and name:
at once and after any further inquiries. -/
theorem writtenName_eq_nativeName (rules : Links) (toHtml : String → String)
    (asked more : List (Inquiry reg)) (e : reg.Entry) (templates : List String)
    (doc : Option Document) (name : String) (span : Span) (hrelative : isRelative name = false)
    (hbound :
      ∀ n ∈ [unrooted name, (Resolver.ofEntry e templates).complete reg (unrooted name)],
        (Resolver.ofEntry e templates).isBound doc n = false)
    (id : ChapterId) (full : String)
    (hnative : ((nativeName e templates name span).run ((serve rules toHtml asked).run {}).2).1
      = .linked id full [])
    (hexact : ∀ s, reg.find? (unrooted name) = some s → s.1.name = full) :
    let now := ((serve rules toHtml asked).run {}).2
    let later := ((serve rules toHtml more).run ((nativeName e templates name span).run now).2).2
    (writtenName e templates doc name).run now = (nativeName e templates name span).run now ∧
      ((writtenName e templates doc name).run later).1 = .linked id full [] := by
  intro now later
  have hnow : now.Sound := (serve_spec rules toHtml asked Run.sound_empty).1
  obtain ⟨s, hfind, hname⟩ := exists_of_nativeName hnow hnative
  obtain ⟨hafter, c, hanswer, hget, hentry, -⟩ := nativeName_of_find? hnow templates hfind
  obtain ⟨hlater, hle, -⟩ := serve_spec rules toHtml more hafter
  obtain ⟨hafter', c', hanswer', hget', hentry', hle'⟩ :=
    nativeName_of_find? hlater templates hfind
  have hclass : ∀ s', reg.find? (unrooted name) = some s' → s' = s := by
    intro s' hs'
    refine Registry.entry_eq_of_key (congrArg Registry.lower ?_)
    rw [hexact s' hs', hname]
  refine ⟨writtenName_of_sound hnow hrelative hbound hfind hclass, ?_⟩
  have hid : c.id = c'.id :=
    hafter'.contents.id_eq_of_entry (Contents.get?_mono (hle.trans hle') hget) hget'
      (hentry.trans hentry'.symm)
  rw [writtenName_of_sound hlater hrelative hbound hfind hclass, hanswer', ← hid, ← hanswer]
  exact hnative

/-- A class with nothing in it. -/
def bareClass (space name : String) (imports : List (String × String)) : ClassEntry where
  name := space ++ "\\" ++ name
  space := space
  origin := .project
  path := name ++ ".php"
  decl := {
    kind := .plainClass, name := ⟨name, ⟨0, 0⟩⟩, modifiers := {}, parents :=
      [], implements := []
    backingType := none, doc := none, span := ⟨0, 0⟩ }
  scope := ⟨space, imports⟩

/-- A page that imports two namespaces of a vendor, of which only the first is there, and a class
in that namespace. -/
def vendorRegistry : Registry where
  entries := [bareClass "App" "Page" [("Orm", "Vendor\\Orm"), ("Old", "Vendor\\Old")],
    bareClass "Vendor\\Orm" "Entity" []]
  distinct := by decide +kernel
  formed := by decide +kernel

/-- The page in that registry. -/
def vendorPage : vendorRegistry.Entry :=
  ⟨_, List.mem_cons_self⟩

/-- The class in the namespace of the vendor. -/
def vendorEntity : vendorRegistry.Entry :=
  ⟨_, List.mem_cons_of_mem _ List.mem_cons_self⟩

/-- On the page, a name through the import of a namespace leads to the chapter of the class. -/
theorem writtenName_vendorPage :
    ((writtenName vendorPage [] none "Orm\\Entity").run {}).1
      = .linked ⟨0⟩ vendorEntity.1.name [] := by
  have hresolve : vendorPage.1.scope.resolve (.ofText "Orm\\Entity" ⟨0, 0⟩)
      = vendorEntity.1.name := by
    have hname :
        Name.ofText "Orm\\Entity" ⟨0, 0⟩ = ⟨"Orm\\Entity", .qualified, ⟨0, 0⟩⟩ := by
      decide +kernel
    have hsplit : splitFirst "Orm\\Entity" = ("Orm", some "Entity") := by decide +kernel
    have hfirst : sameText "Orm" "namespace" = false := by decide +kernel
    have himported : vendorPage.1.scope.imported? "Orm" = some "Vendor\\Orm" :=
      Scope.imported?_self ..
    rw [hname]
    simp only [Scope.resolve, Scope.resolveQualified, hsplit, hfirst, himported, Bool.false_eq_true,
      if_false, Option.getD_some]
    decide +kernel
  have hnative : ((nativeName vendorPage [] "Orm\\Entity" ⟨0, 0⟩).run {}).1
      = .linked ⟨0⟩ vendorEntity.1.name [] := by
    rw [nativeName_of_sound Run.sound_empty, reference, hresolve, Registry.find?_name]
    rfl
  have hunnamed : vendorRegistry.find? (unrooted "Orm\\Entity") = none := by
    rw [← Option.isNone_iff_eq_none]
    decide +kernel
  have hagree :=
    (writtenName_eq_nativeName {} Markdown.toHtml [] [] vendorPage [] none "Orm\\Entity" ⟨0, 0⟩
    (by decide +kernel) (fun _ _ => rfl) ⟨0⟩ vendorEntity.1.name hnative (by simp [hunnamed])).1
  exact (congrArg Prod.fst hagree).trans hnative

end PhpHandbook.Handbook
