import PhpHandbook.Proofs.NameResolution

/-!
# Names that are already resolved

A name in a comment is looked up in the surroundings of one declaration: it may be exactly the name
of a class, lead through an import, or be completed with the namespace.  The answer, if it is a
reference, carries the full name of a registered class.  Written anywhere else, in any letters and
with any number of separators in front, that full name leads back to the same chapter: a class of
exactly the written name comes before everything that the other surroundings could make of it.

## Main definitions

* `nameIn`: a name in a comment with its generics, resolved at a declaration.

## Main statements

* `Resolver.exists_of_linked`: every reference carries the full name of a registered class.
* `Resolver.resolveName_of_find?`: the name of a registered class is a reference to that class.
* `nameIn_of_resolved`: the name in a reference leads to the same reference everywhere.
-/

namespace PhpHandbook.Registry

/-- **A class is found under every spelling** of its name. -/
theorem find?_of_sameText {reg : Registry} {name : String} {s : reg.Entry}
    (h : sameText (unrooted name) s.1.name = true) : reg.find? name = some s := by
  have hlower : lower (unrooted name) = lower s.1.name := by
    simpa [sameText] using h
  have hkey : classKey name = classKey s.1.name := by
    rw [classKey, hlower, classKey_of_beginsName (reg.formed s.1 s.2).named]
  rw [find?, hkey]
  exact find?_name s

end PhpHandbook.Registry

namespace PhpHandbook.Handbook

open DocBlock (Document)
open Registry (sameText unrooted)

variable {reg : Registry}

/-- A name resolved at a declaration as one in a comment, with generics that are resolved
already. -/
def nameIn (e : reg.Entry) (templates : List String) (doc : Option Document) (name : String)
    (generics : List ResolvedType) : Gather reg ResolvedType := do
  let r ← resolverWith e templates
  r.resolveName doc name generics

/-- **A name that is a reference** carries the full name of a registered class. -/
theorem Resolver.exists_of_linked {r : Resolver} {doc : Option Document} {name : String}
    {generics args : List ResolvedType} {run : Run reg} {id : ChapterId} {full : String}
    (h : ((r.resolveName doc name generics).run run).1 = .linked id full args) :
    ∃ s : reg.Entry, s.1.name = full ∧ args = generics ∧
      r.resolveName doc name generics
        = (reference s.1.name generics : Gather reg ResolvedType) := by
  unfold resolveName at h ⊢
  by_cases hbound : r.isBound doc (unrooted name)
      || r.isBound doc (r.complete reg (unrooted name))
  · rw [if_pos hbound] at h
    cases h
  · rw [if_neg hbound] at h ⊢
    cases hfind : reg.find? (r.complete reg (unrooted name)) with
    | none =>
      simp only [reference, hfind] at h
      cases h
    | some s =>
      have hreference := reference_eq_of_find? hfind (Registry.find?_name s) generics
      rw [hreference, reference, Registry.find?_name] at h
      injection h with _ hname hargs
      exact ⟨s, hname, hargs.symm, hreference⟩

/-- **The name of a registered class** is a reference to that class, whatever surrounds it, where
neither the written name nor the full one is that of a template. -/
theorem Resolver.resolveName_of_find? {r : Resolver} {doc : Option Document} {name : String}
    {s : reg.Entry} (hfind : reg.find? name = some s)
    (hbound : ∀ n ∈ [unrooted name, s.1.name], r.isBound doc n = false)
    (generics : List ResolvedType) :
    r.resolveName doc name generics = (reference s.1.name generics : Gather reg ResolvedType) := by
  have hcomplete : r.complete reg (unrooted name) = s.1.name := by
    simp only [complete, Registry.find?_unrooted, hfind]
  have hwritten : r.isBound doc (unrooted name) = false := hbound _ (by simp)
  have hfull : r.isBound doc s.1.name = false := hbound _ (by simp)
  simp only [resolveName, hcomplete, hwritten, hfull, Bool.or_self, Bool.false_eq_true, if_false]

/-- A name that is a reference to a class wherever the resolver comes from, in a sound run. -/
theorem nameIn_of_sound {run : Run reg} (h : run.Sound) {e : reg.Entry} {templates : List String}
    {doc : Option Document} {name : String} {generics : List ResolvedType} {s : reg.Entry}
    (hreference : (Resolver.ofEntry e templates).resolveName doc name generics
      = (reference s.1.name generics : Gather reg ResolvedType)) :
    ((nameIn e templates doc name generics).run run).2.Sound ∧
      ∃ c, ((nameIn e templates doc name generics).run run).1
          = .linked c.id s.1.name generics ∧
        ((nameIn e templates doc name generics).run run).2.contents.get? c.id = some c ∧
        c.entry = s ∧
        run.contents ≤ ((nameIn e templates doc name generics).run run).2.contents := by
  obtain ⟨-, hsound, hcontents⟩ := Gather.gives_resolverWith e templates run h rfl
  rw [nameIn, run_resolverWith_bind h, hreference, ← hcontents]
  exact reference_of_sound hsound s generics

/-- **Resolving a resolved name changes nothing.**  After any sequence of inquiries, let a name in a
comment, at any declaration and with any templates and generics, be a reference.  Then any spelling
of the full name in that reference, at any declaration where neither that spelling without the
separators in front of it nor the full name is that of a template, is the same reference with the
same number: at once and after any further inquiries. -/
theorem nameIn_of_resolved (rules : Links) (toHtml : String → String)
    (asked more : List (Inquiry reg)) (e e' : reg.Entry) (templates templates' : List String)
    (doc doc' : Option Document) (name spelling : String) (generics args : List ResolvedType)
    (id : ChapterId) (full : String)
    (hresolved :
      ((nameIn e templates doc name generics).run ((serve rules toHtml asked).run {}).2).1
      = .linked id full args)
    (hspelling : sameText (unrooted spelling) full = true)
    (hbound : ∀ n ∈ [unrooted spelling, full],
      (Resolver.ofEntry e' templates').isBound doc' n = false) :
    let now := ((serve rules toHtml asked).run {}).2
    let next := ((nameIn e templates doc name generics).run now).2
    let later := ((serve rules toHtml more).run next).2
    ((nameIn e' templates' doc' spelling generics).run next).1 = .linked id full args ∧
      ((nameIn e' templates' doc' spelling generics).run later).1 = .linked id full args := by
  intro now next later
  have hnow : now.Sound := (serve_spec rules toHtml asked Run.sound_empty).1
  have hrun : ((Resolver.ofEntry e templates).resolveName doc name generics).run
      ((resolverWith e templates).run now).2 = (nameIn e templates doc name generics).run now :=
    (run_resolverWith_bind hnow e templates fun r => r.resolveName doc name generics).symm
  obtain ⟨s, rfl, rfl, hreference⟩ :=
    Resolver.exists_of_linked ((congrArg Prod.fst hrun).trans hresolved)
  obtain ⟨hnext, c, hanswer, hget, hentry, -⟩ := nameIn_of_sound hnow hreference
  obtain rfl : c.id = id := by
    rw [hanswer] at hresolved
    injection hresolved
  have hagain := Resolver.resolveName_of_find? (Registry.find?_of_sameText hspelling) hbound args
  -- the chapter is the same in every run that comes after the first answer
  have hsame (run : Run reg) (hsound : run.Sound) (hle : next.contents ≤ run.contents) :
      ((nameIn e' templates' doc' spelling args).run run).1 = .linked c.id s.1.name args := by
    obtain ⟨hafter, c', hanswer', hget', hentry', hle'⟩ := nameIn_of_sound hsound hagain
    have hid : c.id = c'.id :=
      hafter.contents.id_eq_of_entry (Contents.get?_mono (hle.trans hle') hget) hget'
        (hentry.trans hentry'.symm)
    rw [hanswer', hid]
  obtain ⟨hlater, hle, -⟩ := serve_spec rules toHtml more hnext
  exact ⟨hsame next hnext (le_refl _), hsame later hlater hle⟩

/-- The class of the vendor is found by its own name in its namespace, and then on the page by its
full name in other letters and with two separators in front. -/
theorem nameIn_of_resolved_vendorEntity :
    ((nameIn vendorPage ["T"] none "\\\\vendor\\orm\\ENTITY" []).run
      ((nameIn vendorEntity [] none "Entity" []).run ((serve {} Markdown.toHtml []).run {}).2).2).1
      = .linked ⟨0⟩ vendorEntity.1.name [] := by
  have hcomplete : (Resolver.ofEntry vendorEntity []).complete vendorRegistry (unrooted "Entity")
      = vendorEntity.1.name := by
    have hunrooted : unrooted "Entity" = "Entity" := by decide +kernel
    have hunnamed : vendorRegistry.find? "Entity" = none := by
      rw [← Option.isNone_iff_eq_none]
      decide +kernel
    have hsibling : (Resolver.ofEntry vendorEntity []).sibling? vendorRegistry "Entity"
        = some vendorEntity.1.name := by
      show (vendorRegistry.find? vendorEntity.1.name).map (·.1.name) = _
      rw [Registry.find?_name, Option.map_some]
    rw [hunrooted, Resolver.complete, hunnamed]
    show (none.or _).getD _ = _
    rw [Option.none_or, hsibling, Option.getD_some]
  have hresolved :
      ((nameIn vendorEntity [] none "Entity" []).run ((serve {} Markdown.toHtml []).run {}).2).1
      = .linked ⟨0⟩ vendorEntity.1.name [] := by
    have hreference : (Resolver.ofEntry vendorEntity []).resolveName none "Entity" []
        = (reference vendorEntity.1.name [] : Gather vendorRegistry ResolvedType) := by
      rw [Resolver.resolveName, hcomplete]
      rfl
    show ((nameIn vendorEntity [] none "Entity" []).run {}).1 = _
    rw [nameIn, run_resolverWith_bind Run.sound_empty, hreference, reference, Registry.find?_name]
    rfl
  have hspelling : sameText (unrooted "\\\\vendor\\orm\\ENTITY") vendorEntity.1.name = true := by
    have hunrooted : unrooted "\\\\vendor\\orm\\ENTITY" = "vendor\\orm\\ENTITY" := by decide +kernel
    rw [hunrooted, sameText, beq_iff_eq, ← String.toList_inj, Registry.lower, String.toList_map,
      Registry.lower, String.toList_map]
    decide +kernel
  have hbound : ∀ n ∈ [unrooted "\\\\vendor\\orm\\ENTITY", vendorEntity.1.name],
      (Resolver.ofEntry vendorPage ["T"]).isBound none n = false := by
    decide +kernel
  exact (nameIn_of_resolved {} Markdown.toHtml [] [] vendorEntity vendorPage [] ["T"] none
    none "Entity" "\\\\vendor\\orm\\ENTITY" [] [] ⟨0⟩ vendorEntity.1.name hresolved hspelling
    hbound).1

end PhpHandbook.Handbook
