import PhpHandbook.Proofs.Anchors
import PhpHandbook.Proofs.Heirs
import PhpHandbook.Proofs.InterfaceClosure

/-!
# Where inherited methods come from

A description of a method says which trait or ancestor the method comes from.  This is worked out on
every class again.  On the class that took the method over from a trait it is the trait of a rule or
one of those that the class lists, with the arguments that are given there.  On a class below, of
which the method remembers no more than the declaration that it was written in and the class that
has it, it is the first of the two, as the second one lists it.

So both agree if the class has the method from the trait that declares it.  If that trait is used by
another one, from which the class has the method, they do not: the class shows the trait that it
uses, its heirs show the one inside.

## Main definitions

* `listing`, `origin`: the traits that a class lists and where its methods come from, without a run
  and without numbers.
* `Describes`: a description of a method on a class.
* `Orderly`: rules for traits take effect, and only used traits are listed.

## Main statements

* `Query.ensures_originOf`, `Query.ensures_methods_described`: every sound run shows the origin.
* `distinct_listing`: a class does not list two traits of one name.
* `origin_of_inherited`: what the origin is on an heir.
* `origin_eq_iff`: when it is the same on the class that has the method from a trait.
* `origins_agree_iff`: when both show the same origin in a run.
-/

namespace PhpHandbook.Handbook

open Hierarchy (VisibleMethod)
open Registry (lower sameText unrooted)

variable {reg : Registry} {α β : Type}

/-! ### Origins without numbers -/

variable (reg) in
/-- A reference to a class by its full name, without a number. -/
def plainReference (name : String) : ResolvedType :=
  match reg.find? name with
  | some e => .linked ⟨0⟩ e.1.name []
  | none => .named (unrooted name) []

/-- **The traits that a class lists**, without numbers; none if they cannot be worked out. -/
def listing (e : reg.Entry) : List ResolvedType :=
  match firstAnswer e .traits with
  | .ok types => erase types
  | .error _ => []

variable (reg) in
/-- The type in a list with the given name, or a plain reference to it. -/
def listedIn (types : List ResolvedType) (name : String) : ResolvedType :=
  (listed? types name).getD (plainReference reg name)

/-- The trait or ancestor that an inherited method comes from, without numbers. -/
def inheritedFrom (m : VisibleMethod reg) : ResolvedType :=
  if m.source.1.kind = .trait then
    match reg.find? m.declaringClass with
    | some d => listedIn reg (listing d) m.source.1.name
    | none => plainReference reg m.source.1.name
  else plainReference reg m.declaringClass

/-- **Where a method comes from**, without numbers. -/
def origin (e : reg.Entry) (m : VisibleMethod reg) : Option ResolvedType :=
  if sameText m.source.1.name e.1.name then none
  else
    match aliasedTrait? ⟨⟨0⟩, e⟩ m with
    | some name => some (listedIn reg (listing e) name)
    | none =>
      match providingTrait? ⟨⟨0⟩, e⟩ (listing e) m with
      | some type => some type
      | none => if sameText m.declaringClass e.1.name then none else some (inheritedFrom m)

/-! ### Lists without numbers -/

theorem find?_erase [Linked α] (as : List α) (p : α → Bool) (hp : ∀ a, p (erase a) = p a) :
    (erase as).find? p = (as.find? p).map erase := by
  show (as.map erase).find? p = _
  rw [List.find?_map]
  congr 2
  exact funext hp

theorem listed?_erase (types : List ResolvedType) (name : String) :
    listed? (erase types) name = (listed? types name).map erase := by
  refine find?_erase types _ fun t => ?_
  show (t.renumber _).name?.any _ = _
  rw [ResolvedType.name?_renumber]

theorem providingTrait?_erase (c : Chapter reg) (types : List ResolvedType)
    (m : VisibleMethod reg) :
    providingTrait? c (erase types) m = (providingTrait? c types m).map erase := by
  refine find?_erase types _ fun t => ?_
  show (t.renumber _).name?.any _ = _
  rw [ResolvedType.name?_renumber]

/-! ### Queries for origins -/

namespace Query

variable {before : Contents reg}

/-- A query that cannot fail before one that may. -/
theorem ensures_gathered_bind {g : Gather reg α} {k : α → Query reg β}
    {P : Contents reg → α → Prop} {Q : β → Prop} (h : Gather.Ensures before g P)
    (hk : ∀ contents, before ≤ contents → ∀ a, P contents a → Ensures contents (k a) Q) :
    Ensures before (gathered g >>= k) Q :=
  Gather.Ensures.bind (k := fun a => (k a).run) h hk

theorem ensures_mapM {ι : Type} {f : ι → Query reg α} {P : ι → α → Prop} (xs : List ι)
    (h : ∀ contents, before ≤ contents → ∀ x ∈ xs, Ensures contents (f x) (P x)) :
    Ensures before (xs.mapM f) fun as => ∀ a ∈ as, ∃ x ∈ xs, P x a := by
  induction xs generalizing before with
  | nil =>
    rw [List.mapM_nil]
    exact ensures_pure (by simp)
  | cons x xs ih =>
    rw [List.mapM_cons]
    refine (h before (le_refl before) x List.mem_cons_self).bind fun contents hle a ha => ?_
    have hrest := ih fun contents' hle' y hy =>
      h contents' (hle.trans hle') y (List.mem_cons_of_mem x hy)
    refine hrest.bind fun _ _ as has =>
      ensures_pure (List.forall_mem_cons.2 ⟨?_, fun b hb => ?_⟩)
    · exact ⟨x, List.mem_cons_self, ha⟩
    · obtain ⟨y, hy, hyb⟩ := has b hb
      exact ⟨y, List.mem_cons_of_mem x hy, hyb⟩

theorem ensures_reference (name : String) :
    Ensures before (gathered (reference name []) : Query reg ResolvedType) fun t =>
      erase t = plainReference reg name := by
  intro run hrun hbefore
  obtain ⟨hsound, hle, -⟩ :=
    ensures_of_agree (.gathered (Gather.agree_reference name .nil)) run hrun hbefore
  refine ⟨hsound, hle, fun t ht => ?_⟩
  unfold reference at ht
  unfold plainReference
  cases hfind : reg.find? name with
  | some e =>
    rw [hfind] at ht
    cases ht
    rfl
  | none =>
    rw [hfind] at ht
    cases ht
    rfl

theorem ensures_listedOrReference (types : List ResolvedType) (name : String) :
    Ensures before (listedOrReference types name : Query reg ResolvedType) fun t =>
      erase t = listedIn reg (erase types) name := by
  unfold listedOrReference
  rw [listedIn, listed?_erase]
  cases listed? types name with
  | some type => exact ensures_pure rfl
  | none => exact ensures_reference name

theorem facet_traits (c : Chapter reg) : c.facet .traits = remembered c .traits c.findTraits := rfl

theorem facet_methods (c : Chapter reg) :
    c.facet .methods = remembered c .methods c.findMethods := rfl

/-- The traits of a class are those that it lists. -/
theorem ensures_traits {c : Chapter reg} (hc : before.get? c.id = some c) :
    Ensures before c.traits fun types => erase types = listing c.entry := by
  intro run hrun hbefore
  obtain ⟨hsound, hle, -, hanswer⟩ :=
    remembered_of_sound facet_traits agree_findTraits hrun (Contents.get?_mono hbefore hc)
  refine ⟨hsound, hle, fun types htypes => ?_⟩
  have hfirst : erase (Except.ok types) = erase (firstAnswer c.entry .traits) := by
    rw [← hanswer]
    exact congrArg erase htypes.symm
  unfold listing
  cases hfirst' : firstAnswer c.entry .traits with
  | ok types' =>
    rw [hfirst'] at hfirst
    exact Except.ok.inj hfirst
  | error e =>
    rw [hfirst'] at hfirst
    cases hfirst

theorem gather_ensures_pure {P : Contents reg → α → Prop} {a : α}
    (h : ∀ contents, before ≤ contents → P contents a) :
    Gather.Ensures before (pure a : Gather reg α) P :=
  fun run hrun hbefore => ⟨hrun, le_refl _, h run.contents hbefore⟩

/-- The chapter of a name is about the declaration of that name. -/
theorem ensures_chapter? (name : String) :
    Gather.Ensures before (chapter? name : Gather reg (Option (Chapter reg))) fun contents found =>
      found.map (·.entry) = reg.find? name ∧ ∀ d, found = some d →
        contents.get? d.id = some d := by
  unfold chapter?
  cases reg.find? name with
  | none => exact gather_ensures_pure fun _ _ => ⟨rfl, by simp⟩
  | some e =>
    simp only [map_eq_pure_bind]
    refine (Gather.ensures_chapterOf e).bind fun contents _ d ⟨hget, hentry⟩ => ?_
    refine gather_ensures_pure fun contents' hle => ⟨congrArg some hentry, fun x hx => ?_⟩
    obtain rfl := Option.some.inj hx
    exact Contents.get?_mono hle hget

theorem ensures_inheritedOrigin (m : VisibleMethod reg) :
    Ensures before (inheritedOrigin m) fun t => erase t = inheritedFrom m := by
  unfold inheritedOrigin inheritedFrom
  by_cases hkind : m.source.1.kind = .trait
  · simp only [hkind, if_true]
    refine ensures_gathered_bind (ensures_chapter? _)
      fun contents hle found ⟨hentry, hget⟩ => ?_
    rw [← hentry]
    cases found with
    | none =>
      simp only [Option.map_none]
      exact ensures_reference m.source.1.name
    | some d =>
      simp only [Option.map_some]
      refine (ensures_traits (hget d rfl)).bind fun _ _ types htypes => ?_
      rw [← htypes]
      exact ensures_listedOrReference types m.source.1.name
  · simp only [hkind, if_false]
    exact ensures_reference m.declaringClass

/-- **Where a method comes from**, up to numbers. -/
theorem ensures_originOf {c : Chapter reg} (hc : before.get? c.id = some c)
    (m : VisibleMethod reg) :
    Ensures before (originOf c m) fun found => erase found = origin c.entry m := by
  have hname : c.name = c.entry.1.name := rfl
  unfold originOf origin
  rw [hname]
  by_cases hown : sameText m.source.1.name c.entry.1.name = true
  · rw [if_pos hown, if_pos hown]
    exact ensures_pure rfl
  · rw [if_neg hown, if_neg hown]
    have halias : aliasedTrait? ⟨⟨0⟩, c.entry⟩ m = aliasedTrait? c m := rfl
    rw [halias]
    refine (ensures_traits hc).bind fun contents hle types htypes => ?_
    rw [← htypes]
    cases aliasedTrait? c m with
    | some name =>
      simp only [map_eq_pure_bind]
      exact (ensures_listedOrReference types name).bind fun _ _ t ht =>
        ensures_pure (congrArg some ht)
    | none =>
      have hproviding : providingTrait? ⟨⟨0⟩, c.entry⟩ (erase types) m
          = (providingTrait? c types m).map erase := providingTrait?_erase c types m
      rw [hproviding]
      cases providingTrait? c types m with
      | some type => exact ensures_pure rfl
      | none =>
        by_cases hdeclared : sameText m.declaringClass c.entry.1.name = true
        · simp only [hdeclared, if_true, Option.map_none]
          exact ensures_pure rfl
        · simp only [hdeclared, if_false, Option.map_none, map_eq_pure_bind, Bool.false_eq_true]
          exact (ensures_inheritedOrigin m).bind fun _ _ t ht => ensures_pure (congrArg some ht)

end Query

/-! ### The methods of a class -/

/-- **A description of a method** as it is visible on a class. -/
structure Describes (e : reg.Entry) (m : VisibleMethod reg) (x : Method) : Prop where
  /-- It has the name of the method. -/
  name : x.name = m.name
  /-- It names the class that has the method. -/
  declaringClass : x.declaringClass = m.declaringClass
  /-- It says where the method comes from. -/
  origin : erase x.origin = Handbook.origin e m

namespace Query

variable {before : Contents reg}

theorem ensures_describeMethod {c : Chapter reg} (hc : before.get? c.id = some c)
    (m : VisibleMethod reg) : Ensures before (describeMethod c m) (Describes c.entry m) := by
  refine (ensures_of_agree (.gathered (Gather.agree_readComment _))).bind fun _ hle₁ doc _ => ?_
  refine (ensures_of_agree (.gathered (Gather.agree_resolverOf _))).bind fun _ hle₂ r _ => ?_
  refine (ensures_of_agree (agree_resolveTemplates r (some doc) doc.templates)).bind
    fun _ hle₃ templates _ => ?_
  refine (ensures_of_agree (.mapM _ fun p _ => agree_describeParameter r doc p.2 p.1)).bind
    fun _ hle₄ params _ => ?_
  refine (ensures_of_agree (.gathered (Gather.agree_resolveHint? r m.method.returnType))).bind
    fun _ hle₅ returnType _ => ?_
  refine (ensures_of_agree (agree_resolveIf r (some doc) _)).bind fun _ hle₆ returnDocType _ => ?_
  refine (ensures_of_agree (.mapM _ fun tag _ => agree_resolve r (some doc) _ tag.type)).bind
    fun _ hle₇ throws _ => ?_
  -- none of these moves the chapter
  have hle :=
    ((((hle₁.trans hle₂).trans hle₃).trans hle₄).trans hle₅).trans (hle₆.trans hle₇)
  refine (ensures_originOf (Contents.get?_mono hle hc) m).bind fun _ _ found hfound => ?_
  refine (ensures_of_agree (.mapM _ fun name _ =>
    .gathered (Gather.agree_reference name .nil))).bind fun _ _ interfaceOrigins _ => ?_
  exact ensures_pure ⟨rfl, rfl, hfound⟩

/-- **The methods of a class are described**, each with its origin. -/
theorem ensures_methods_described {c : Chapter reg} (hc : before.get? c.id = some c) :
    Ensures before c.methods fun members => ∀ x ∈ members,
      ∃ m ∈ Hierarchy.methods reg c.entry, Describes c.entry m x := by
  refine ensures_facet .methods Chapter.findMethods facet_methods agree_findMethods
    (P := fun e members => ∀ x ∈ members, ∃ m ∈ Hierarchy.methods reg e, Describes e m x)
    (fun e members members' herase h x hx => ?_) (fun before c hc => ?_) hc
  · have herased : erase x ∈ members.map erase := by
      rw [show members.map erase = members'.map erase from herase]
      exact List.mem_map_of_mem hx
    obtain ⟨x', hx', hsame⟩ := List.mem_map.1 herased
    obtain ⟨m, hm, hdescribes⟩ := h x' hx'
    refine ⟨m, hm, ?_, ?_, ?_⟩
    · exact (congrArg Method.name hsame).symm.trans hdescribes.name
    · exact (congrArg Method.declaringClass hsame).symm.trans hdescribes.declaringClass
    · exact (congrArg Method.origin hsame).symm.trans hdescribes.origin
  · have hall : Ensures before ((Hierarchy.methods reg c.entry).mapM (describeMethod c)) _ :=
      ensures_mapM (P := Describes c.entry) _ fun _ hle m _ =>
        ensures_describeMethod (Contents.get?_mono hle hc) m
    refine hall.bind fun _ _ members hmembers => ensures_pure fun x hx => ?_
    exact hmembers x (List.mem_mergeSort.1 hx)

end Query

/-! ### The names of listed traits -/

/-- A type has a name, without regard to capital and small letters. -/
def IsNamed (t : ResolvedType) (name : String) : Prop :=
  t.name?.any (sameText · name) = true

theorem isNamed_iff {t : ResolvedType} {name : String} :
    IsNamed t name ↔ ∃ n, t.name? = some n ∧ lower n = lower name := by
  unfold IsNamed
  cases t.name? with
  | none => simp
  | some n => simp [sameText]

theorem isNamed_erase {t : ResolvedType} {name : String} :
    IsNamed (erase t) name ↔ IsNamed t name := by
  show (t.renumber _).name?.any _ = true ↔ _
  rw [ResolvedType.name?_renumber, IsNamed]

theorem exists_isNamed_erase {o : Option ResolvedType} {name : String} :
    (∃ t, erase o = some t ∧ IsNamed t name) ↔ ∃ t, o = some t ∧ IsNamed t name := by
  cases o with
  | none => simp [erase, relink]
  | some t => simpa [erase, relink] using isNamed_erase

/-- No two types in a list have the same name. -/
def Distinct (types : List ResolvedType) : Prop :=
  (types.map fun t => lower (listName t)).Nodup

theorem Distinct.eq_of_isNamed {types : List ResolvedType} (h : Distinct types)
    {t t' : ResolvedType} (ht : t ∈ types) (ht' : t' ∈ types) {name : String}
    (hname : IsNamed t name) (hname' : IsNamed t' name) : t = t' := by
  obtain ⟨n, hn, hlower⟩ := isNamed_iff.1 hname
  obtain ⟨n', hn', hlower'⟩ := isNamed_iff.1 hname'
  refine List.inj_on_of_nodup_map h ht ht' ?_
  rw [listName, listName, hn, hn', Option.getD_some, Option.getD_some, hlower, hlower']

theorem Distinct.addUnlisted {types : List ResolvedType} (h : Distinct types) (t : ResolvedType) :
    Distinct (addUnlisted types t) := by
  unfold Handbook.addUnlisted
  split
  · exact h
  · next hnew =>
    rw [Distinct, List.map_append, List.map_singleton, ← List.concat_eq_append]
    refine h.concat fun hmem => hnew ?_
    obtain ⟨t', ht', hsame⟩ := List.mem_map.1 hmem
    exact List.any_eq_true.2 ⟨t', ht', beq_iff_eq.2 hsame⟩

theorem Query.yields_foldlM {ι : Type} {step : α → ι → Query reg α} {P : α → Prop}
    (hstep : ∀ a, P a → ∀ x, (step a x).Yields P) (xs : List ι) {a : α} (ha : P a) :
    (xs.foldlM step a).Yields P := by
  induction xs generalizing a with
  | nil => exact yields_pure ha
  | cons x xs ih =>
    rw [List.foldlM_cons]
    exact (hstep a ha x).bind fun b hb => ih hb

theorem Query.yields_findTraits (c : Chapter reg) : c.findTraits.Yields Distinct := by
  unfold Chapter.findTraits
  refine (yields_true _).bind fun r _ => ?_
  refine Yields.bind (P := Distinct) (yields_foldlM (fun types htypes use => ?_) _ List.nodup_nil)
    fun types htypes => ?_
  · refine (yields_true _).bind fun doc _ => ?_
    cases doc.usedTrait.value with
    | none => exact yields_pure htypes
    | some tag =>
      refine (yields_true _).bind fun type _ => yields_pure ?_
      split
      · exact htypes.addUnlisted type
      · exact htypes
  · exact yields_foldlM (fun types htypes use =>
      (yields_true _).bind fun type _ => yields_pure (htypes.addUnlisted type)) _ htypes

/-- **The traits that a class lists** have different names. -/
theorem distinct_listing (e : reg.Entry) : Distinct (listing e) := by
  unfold listing
  cases hfirst : firstAnswer e .traits with
  | error _ => exact List.nodup_nil
  | ok types =>
    rw [firstAnswer_eq Query.facet_traits] at hfirst
    have hdistinct : Distinct types := Query.yields_findTraits _ _ types hfirst
    have hnames : (erase types).map (fun t => lower (listName t))
        = types.map fun t => lower (listName t) := by
      show (types.map erase).map _ = _
      rw [List.map_map]
      exact List.map_congr_left fun t _ => congrArg lower (ResolvedType.listName_renumber _ t)
    rw [Distinct, ← hnames] at hdistinct
    exact hdistinct

/-! ### Inherited methods -/

/-- **An orderly class**: each of its rules for a trait takes effect, and of the traits that it
lists the registered ones are used. -/
structure Orderly (e : reg.Entry) : Prop where
  /-- Every rule for a trait takes a method over from it. -/
  rules : Hierarchy.RulesTakeEffect e
  /-- A comment may give arguments for a used trait, but lists no other class. -/
  listed : ∀ type ∈ listing e, ∀ name, type.name? = some name → reg.contains name = true →
    ∃ t ∈ Hierarchy.traits reg e.1, name = t.1.name

variable {c d : reg.Entry} {m : VisibleMethod reg}

/-- No rule of an orderly class gives the name of an inherited method. -/
theorem aliasedTrait?_of_inherited (hacyclic : Hierarchy.AcyclicFrom c)
    (hc : Hierarchy.RulesTakeEffect c) (hm : m ∈ Hierarchy.methods reg c)
    (hinherited : m.declaringClass ≠ c.1.name) (id : ChapterId) :
    aliasedTrait? ⟨id, c⟩ m = none := by
  refine List.findSome?_eq_none_iff.2 fun a ha => ?_
  obtain ⟨ha, hnew⟩ := List.mem_filter.1 ha
  cases htrait : a.traitName with
  | none => rfl
  | some name =>
    obtain ⟨t, ht, -, r, hr, hrname⟩ := hc a ha name htrait
    have hname : lower r.name = lower m.name := (beq_iff_eq.1 hrname).trans (beq_iff_eq.1 hnew)
    exact absurd (Hierarchy.declaringClass_of_takesOver hacyclic hm ⟨t, ht, hr⟩ hname)
      hinherited

/-- No trait that an orderly class lists provides an inherited method. -/
theorem providingTrait?_of_inherited (hacyclic : Hierarchy.AcyclicFrom c) (hc : Orderly c)
    (hm : m ∈ Hierarchy.methods reg c) (hinherited : m.declaringClass ≠ c.1.name)
    (id : ChapterId) :
    providingTrait? ⟨id, c⟩ (listing c) m = none := by
  refine List.find?_eq_none.2 fun type htype hprovides => ?_
  cases hname : type.name? with
  | none =>
    rw [hname] at hprovides
    cases hprovides
  | some name =>
    rw [hname, Option.any_some, Bool.and_eq_true, Bool.not_eq_true'] at hprovides
    obtain ⟨hmethod, hallowed⟩ := hprovides
    have hcontains : reg.contains name = true := by
      unfold Registry.contains
      cases hfind : reg.find? name with
      | none =>
        rw [hfind] at hmethod
        cases hmethod
      | some e => rfl
    obtain ⟨t, ht, rfl⟩ := hc.listed type htype name hname hcontains
    rw [Registry.find?_name, Option.any_some] at hmethod
    obtain ⟨r, hr, hrname⟩ := Hierarchy.exists_takesOver ht hmethod hallowed
    exact hinherited (Hierarchy.declaringClass_of_takesOver hacyclic hm hr hrname)

theorem not_sameText_name {e e' : reg.Entry} (h : e ≠ e') :
    ¬sameText e.1.name e'.1.name = true :=
  fun hsame => h (Registry.entry_eq_of_key (beq_iff_eq.1 hsame))

/-- **The origin of an inherited method** whose source is a trait: this trait, as the class that has
the method lists it. -/
theorem origin_of_inherited (hacyclic : Hierarchy.AcyclicFrom c) (hc : Orderly c)
    (hm : m ∈ Hierarchy.methods reg c) (hdeclaring : m.declaringClass = d.1.name)
    (hinherited : m.declaringClass ≠ c.1.name) (htrait : m.source.1.kind = .trait) :
    origin c m = some (listedIn reg (listing d) m.source.1.name) := by
  have hsource : m.source ≠ c := by
    rintro rfl
    exact hinherited (Hierarchy.declaringClass_of_trait htrait hm)
  have hclass : d ≠ c := by
    rintro rfl
    exact hinherited hdeclaring
  rw [origin, if_neg (not_sameText_name hsource),
    aliasedTrait?_of_inherited hacyclic hc.rules hm hinherited]
  simp only [providingTrait?_of_inherited hacyclic hc hm hinherited]
  rw [hdeclaring, if_neg (not_sameText_name hclass), inheritedFrom, if_pos htrait, hdeclaring,
    Registry.find?_name]

/-! ### The origin where the method was taken over -/

theorem plainReference_name (e : reg.Entry) :
    plainReference reg e.1.name = .linked ⟨0⟩ e.1.name [] := by
  rw [plainReference, Registry.find?_name]

/-- Capital and small letters do not matter to what is listed. -/
theorem listedIn_congr {types : List ResolvedType} {name : String} {e : reg.Entry}
    (h : lower name = lower e.1.name) : listedIn reg types name = listedIn reg types e.1.name := by
  have hfind : reg.find? name = reg.find? e.1.name :=
    congrArg reg.findKey? (Hierarchy.classKey_eq_of_lower_eq h)
  have hlisted : listed? types name = listed? types e.1.name := by
    simp only [listed?, sameText, h]
  have hplain : plainReference reg name = plainReference reg e.1.name := by
    rw [plainReference, hfind, Registry.find?_name, plainReference_name]
  rw [listedIn, listedIn, hlisted, hplain]

theorem isNamed_of_listed? {types : List ResolvedType} {name : String} {t : ResolvedType}
    (h : listed? types name = some t) : IsNamed t name := by
  unfold listed? at h
  exact (List.find?_eq_some_iff_append.1 h).1

/-- What is listed under a name has it, also if it is a plain reference. -/
theorem isNamed_listedIn (types : List ResolvedType) (e : reg.Entry) :
    IsNamed (listedIn reg types e.1.name) e.1.name := by
  unfold listedIn
  cases hlisted : listed? types e.1.name with
  | none =>
    rw [Option.getD_none, plainReference_name]
    exact isNamed_iff.2 ⟨_, rfl, rfl⟩
  | some t => exact isNamed_of_listed? hlisted

/-- A listed type is listed under its name. -/
theorem listedIn_of_mem {types : List ResolvedType} (hdistinct : Distinct types) {t : ResolvedType}
    (ht : t ∈ types) {name : String} (hname : IsNamed t name) : listedIn reg types name = t := by
  unfold listedIn
  cases hlisted : listed? types name with
  | none => exact absurd hname (List.find?_eq_none.1 hlisted t ht)
  | some t' =>
    rw [Option.getD_some]
    exact hdistinct.eq_of_isNamed (List.mem_of_find?_eq_some hlisted) ht
      (isNamed_of_listed? hlisted) hname

/-- **When a class shows the trait that declares a method**: its origin is then this trait as the
class lists it, with the same arguments. -/
theorem origin_eq_iff (hd : Hierarchy.RulesTakeEffect d)
    (hdeclaring : m.declaringClass = d.1.name) :
    origin d m = some (listedIn reg (listing d) m.source.1.name) ↔
      ∃ t, origin d m = some t ∧ IsNamed t m.source.1.name := by
  refine ⟨fun h => ⟨_, h, isNamed_listedIn _ _⟩, ?_⟩
  rintro ⟨t, horigin, hnamed⟩
  rw [horigin]
  refine congrArg some ?_
  unfold origin at horigin
  split at horigin
  · cases horigin
  · split at horigin
    · next name halias =>
      -- the rule is for a used trait, so its name is that of a registered class
      obtain rfl := Option.some.inj horigin
      obtain ⟨a, ha, htrait⟩ := List.exists_of_findSome?_eq_some halias
      obtain ⟨u, -, husame, -⟩ := hd a (List.mem_filter.1 ha).1 name htrait
      have hname : lower name = lower u.1.name := beq_iff_eq.1 husame
      have hlisted : listedIn reg (listing d) name = listedIn reg (listing d) u.1.name :=
        listedIn_congr hname
      rw [hlisted] at hnamed ⊢
      obtain ⟨n, hn, hsource⟩ := isNamed_iff.1 hnamed
      obtain ⟨n', hn', hu⟩ := isNamed_iff.1 (isNamed_listedIn (listing d) u)
      obtain rfl : n = n' := Option.some.inj (hn.symm.trans hn')
      obtain rfl : u = m.source := Registry.entry_eq_of_key (hu.symm.trans hsource)
      rfl
    · split at horigin
      · next type hproviding =>
        obtain rfl := Option.some.inj horigin
        unfold providingTrait? at hproviding
        have hmem := List.mem_of_find?_eq_some hproviding
        exact (listedIn_of_mem (distinct_listing d) hmem hnamed).symm
      · have hself : sameText d.1.name d.1.name = true := beq_iff_eq.2 rfl
        rw [hdeclaring, if_pos hself] at horigin
        cases horigin

/-! ### Origins in a run -/

/-- The references in a part of a method are among those in the method. -/
theorem Valid.origin {contents : Contents reg} {members : List Method}
    (h : Valid contents members) {x : Method} (hx : x ∈ members) : Valid contents x.origin := by
  intro l hl
  refine h l (List.mem_flatMap.2 ⟨x, hx, ?_⟩)
  show l ∈ links x.templates
    ++ (links x.params ++ (links x.returnType ++ (links x.returnDocType ++
    (links x.throws ++ (links x.origin ++ links x.interfaceOrigins)))))
  simp only [List.mem_append, hl, true_or, or_true]

/-- Valid data is the same if it is the same without numbers. -/
theorem Valid.eq_of_erase_eq [Linked α] {contents : Contents reg}
    (hsound : contents.Sound) {a b : α} (ha : Valid contents a) (hb : Valid contents b)
    (h : erase a = erase b) : a = b :=
  calc a = relink (fun _ name => contents.number name) a := (ha.relink_number hsound).symm
    _ = b := ((Match.mk (w := (contents, contents)) ha hb h).eq_relink hsound).symm

/-- The methods in an answer are described. -/
theorem describes_of_mem_log (rules : Links) (toHtml : String → String)
    (asked : List (Inquiry reg)) {e : reg.Entry} {members : List Method}
    (h : ⟨.facet e .methods, .ok members⟩ ∈ ((serve rules toHtml asked).run {}).1) :
    ∀ x ∈ members, ∃ m ∈ Hierarchy.methods reg e, Describes e m x :=
  Query.holds_of_mem_log rules toHtml asked .methods
    (P := fun e members => ∀ x ∈ members, ∃ m ∈ Hierarchy.methods reg e, Describes e m x)
    Query.ensures_methods_described h

/-- **When an inherited method and the method it comes from have the same origin.**  Let an orderly
class inherit a method from a class whose rules take effect, where the method has come from a trait,
and let both have been asked for their methods in one run.  On the heir the origin is the trait that
declares the method.  It is the origin on the other class as well, with the same arguments, if and
only if the origin there is a reference to the trait that declares the method, and not to one that
has it from there. -/
theorem origins_agree_iff (rules : Links) (toHtml : String → String) (asked : List (Inquiry reg))
    {c d : reg.Entry} (hacyclic : Hierarchy.AcyclicFrom c) (hc : Orderly c)
    (hd : Hierarchy.RulesTakeEffect d) {heirs members : List Method}
    (hheirs : ⟨.facet c .methods, .ok heirs⟩ ∈ ((serve rules toHtml asked).run {}).1)
    (hmembers : ⟨.facet d .methods, .ok members⟩ ∈ ((serve rules toHtml asked).run {}).1)
    {m : VisibleMethod reg} (hm : m ∈ Hierarchy.methods reg c)
    (hdeclaring : m.declaringClass = d.1.name) (hinherited : m.declaringClass ≠ c.1.name)
    (htrait : m.source.1.kind = .trait) {x y : Method} (hx : x ∈ heirs) (hxm : x.name = m.name)
    (hy : y ∈ members) (hym : sameText y.name m.name = true) :
    (∃ t, x.origin = some t ∧ IsNamed t m.source.1.name) ∧
      (x.origin = y.origin ↔ ∃ t, y.origin = some t ∧ IsNamed t m.source.1.name) := by
  obtain ⟨hsound, -, hlog⟩ := serve_spec rules toHtml asked Run.sound_empty
  have hvalidx : Valid _ x.origin := Valid.origin (hlog _ hheirs).valid hx
  have hvalidy : Valid _ y.origin := Valid.origin (hlog _ hmembers).valid hy
  -- both descriptions are of this method, which the heir has as it is
  have horiginx : erase x.origin = origin c m := by
    obtain ⟨m', hm', hdescribes⟩ := describes_of_mem_log rules toHtml asked hheirs x hx
    obtain rfl : m' = m := Hierarchy.eq_of_mem_methods hm' hm
      (congrArg lower (hdescribes.name.symm.trans hxm))
    exact hdescribes.origin
  have horiginy : erase y.origin = origin d m := by
    obtain ⟨m', hm', hdescribes⟩ := describes_of_mem_log rules toHtml asked hmembers y hy
    have hmd : m ∈ Hierarchy.methods reg d :=
      Hierarchy.mem_methods_of_declaringClass hacyclic (Hierarchy.offPath_nil c) hm hdeclaring
    obtain rfl : m' = m := Hierarchy.eq_of_mem_methods hm' hmd
      (hdescribes.name ▸ beq_iff_eq.1 hym)
    exact hdescribes.origin
  have hheir := origin_of_inherited hacyclic hc hm hdeclaring hinherited htrait
  rw [← exists_isNamed_erase (o := x.origin), ← exists_isNamed_erase (o := y.origin), horiginx,
    horiginy, hheir, ← origin_eq_iff hd hdeclaring]
  refine ⟨⟨_, rfl, isNamed_listedIn _ _⟩, fun h => ?_, fun h => ?_⟩
  · rw [← horiginy, ← h, horiginx, hheir]
  · exact hvalidx.eq_of_erase_eq hsound.contents hvalidy (by rw [horiginx, horiginy, hheir, h])

/-! ### A gallery of classes -/

/-- A method that a class shows in a run of its own it shows in every run. -/
theorem exists_mem_log (rules : Links) (toHtml : String → String) (asked : List (Inquiry reg))
    {e : reg.Entry} (hasked : .facet e .methods ∈ asked) {name : String}
    (hfirst : (firstAnswer e .methods).toOption.any
      (fun members : List Method => members.any (·.name == name)) = true) :
    ∃ (members : List Method) (x : Method),
      ⟨.facet e .methods, .ok members⟩ ∈ ((serve rules toHtml asked).run {}).1 ∧
        x ∈ members ∧ x.name = name := by
  cases hfirst₀ : firstAnswer e .methods with
  | error error =>
    rw [hfirst₀] at hfirst
    cases hfirst
  | ok first =>
    rw [hfirst₀] at hfirst
    obtain ⟨x₀, hx₀, hname⟩ := List.any_eq_true.1 hfirst
    obtain ⟨members, hlog, herase⟩ := exists_answer_mem_log rules toHtml asked hasked hfirst₀
    have hmembers : List.map erase (members : List Method) = List.map erase (first : List Method) :=
      herase
    have herased : erase x₀ ∈ List.map erase (members : List Method) :=
      hmembers ▸ List.mem_map_of_mem hx₀
    obtain ⟨x, hx, hsame⟩ := List.mem_map.1 herased
    exact ⟨members, x, hlog, hx, (congrArg Method.name hsame).trans (beq_iff_eq.1 hname)⟩

/-- Two classes with a method from a trait, one of them from the trait that declares it and the
other one from a trait that has it from there, each with a class below it. -/
def gallery : Registry where
  entries := [
    Hierarchy.sketch .trait "Ink" ["draw"] [] [] [],
    Hierarchy.sketch .trait "Pen" [] [] [] ["Ink"],
    Hierarchy.sketch .plainClass "Brush" [] [] [] ["Ink"],
    Hierarchy.sketch .plainClass "Roller" [] ["Brush"] [] [],
    Hierarchy.sketch .plainClass "Quill" [] [] [] ["Pen"],
    Hierarchy.sketch .plainClass "Feather" [] ["Quill"] [] []]
  distinct := by decide +kernel
  formed := by decide +kernel

/-- The class that uses the trait that declares the method. -/
def galleryBrush : gallery.Entry :=
  ⟨Hierarchy.sketch .plainClass "Brush" [] [] [] ["Ink"], by simp [gallery]⟩

/-- The class below it. -/
def galleryRoller : gallery.Entry :=
  ⟨Hierarchy.sketch .plainClass "Roller" [] ["Brush"] [] [], by simp [gallery]⟩

/-- The class that uses the other trait. -/
def quill : gallery.Entry :=
  ⟨Hierarchy.sketch .plainClass "Quill" [] [] [] ["Pen"], by simp [gallery]⟩

/-- The class below it. -/
def feather : gallery.Entry :=
  ⟨Hierarchy.sketch .plainClass "Feather" [] ["Quill"] [] [], by simp [gallery]⟩

theorem acyclicFrom_gallery (e : gallery.Entry) : Hierarchy.AcyclicFrom e := by
  let rank (e : gallery.Entry) : Nat := (gallery.entries.map (·.key)).idxOf e.1.key
  have hdown :
      ∀ e ∈ gallery.entries.attach, ∀ d ∈ Hierarchy.neighbours e, rank d < rank e := by
    decide +kernel
  exact Hierarchy.acyclicFrom_of_rank rank (fun e d => hdown e (List.mem_attach _ e) d) e

/-- Every class of the gallery shows the method. -/
theorem draws_gallery {e : gallery.Entry}
    (he : e ∈ [galleryBrush, galleryRoller, quill, feather]) :
    (firstAnswer e .methods).toOption.any
      (fun members : List Method => members.any (·.name == "draw")) = true := by
  have hinterfaces : Hierarchy.interfaceNames gallery e.1 = [] := by
    have hnear : Hierarchy.nearInterfaces gallery e.1 = [] := by
      simp only [List.mem_cons, List.not_mem_nil, or_false] at he
      rcases he with rfl | rfl | rfl | rfl <;> decide +kernel
    rw [Hierarchy.interfaceNames, hnear, Hierarchy.closeInterfaces]
  have hopened : ((chapterOf e).run {}).1 = ⟨⟨0⟩, e⟩ := rfl
  rw [firstAnswer_eq Query.facet_methods, hopened]
  -- gathering interfaces does not compute, but there are none to describe
  unfold Chapter.findMethods describeMethod
  simp only [hinterfaces]
  simp only [List.mem_cons, List.not_mem_nil, or_false] at he
  rcases he with rfl | rfl | rfl | rfl <;> decide +kernel

/-- An origin in an answer has the name that it has without a run. -/
theorem exists_origin_of_mem_log (rules : Links) (toHtml : String → String)
    (asked : List (Inquiry reg)) {e : reg.Entry} {members : List Method} {x : Method}
    (trait : String)
    (hlog : ⟨.facet e .methods, .ok members⟩ ∈ ((serve rules toHtml asked).run {}).1)
    (hx : x ∈ members) (horigin : ∀ m ∈ Hierarchy.methods reg e,
      ((origin e m).bind (·.name?)) = some trait) :
    ∃ t, x.origin = some t ∧ IsNamed t trait := by
  obtain ⟨m, hm, hdescribes⟩ := describes_of_mem_log rules toHtml asked hlog x hx
  obtain ⟨t, ht, hname⟩ := Option.bind_eq_some_iff.1 (horigin m hm)
  rw [← exists_isNamed_erase, hdescribes.origin]
  exact ⟨t, ht, isNamed_iff.2 ⟨trait, hname, rfl⟩⟩

/-- The heir of a class that uses the declaring trait shows the same origin as that class. -/
theorem origins_agree_roller :
    let log :=
      ((serve {} Markdown.toHtml
        [.facet galleryRoller .methods, .facet galleryBrush .methods]).run {}).1
    ∃ (heirs members : List Method) (x y : Method),
      ⟨.facet galleryRoller .methods, .ok heirs⟩ ∈ log ∧
      ⟨.facet galleryBrush .methods, .ok members⟩ ∈ log ∧
      x ∈ heirs ∧ y ∈ members ∧ x.name = "draw" ∧ y.name = "draw" ∧
      x.origin = y.origin := by
  obtain ⟨heirs, x, hheirs, hx, hxname⟩ := exists_mem_log {} Markdown.toHtml
    [.facet galleryRoller .methods, .facet galleryBrush .methods] (by simp)
    (draws_gallery (e := galleryRoller) (by simp))
  obtain ⟨members, y, hmembers, hy, hyname⟩ := exists_mem_log {} Markdown.toHtml
    [.facet galleryRoller .methods, .facet galleryBrush .methods] (by simp)
    (draws_gallery (e := galleryBrush) (by simp))
  have hmethod : ∃ m ∈ Hierarchy.methods gallery galleryRoller, m.name = "draw" ∧
      m.declaringClass = "Brush" ∧ m.source.1.name = "Ink" ∧ m.source.1.kind = .trait := by
    decide +kernel
  obtain ⟨m, hm, hname, hdeclaring, hsource, htrait⟩ := hmethod
  have hlisting : listing galleryRoller = [] :=
    List.isEmpty_iff.1 (by decide +kernel)
  have haliases : Hierarchy.traitAliases gallery galleryRoller.1 = [] ∧
      Hierarchy.traitAliases gallery galleryBrush.1 = [] := by
    decide +kernel
  have horderly : Orderly galleryRoller :=
    ⟨by simp [Hierarchy.RulesTakeEffect, haliases.1], by simp [hlisting]⟩
  have horigin :=
    exists_origin_of_mem_log {} Markdown.toHtml _ "Ink" hmembers hy (by decide +kernel)
  have hagree := origins_agree_iff {} Markdown.toHtml _ (acyclicFrom_gallery galleryRoller) horderly
    (by simp [Hierarchy.RulesTakeEffect, haliases.2]) hheirs
    hmembers hm hdeclaring (by rw [hdeclaring]; decide +kernel) htrait hx (hxname.trans hname.symm)
    hy (by rw [hyname, hname]; decide +kernel)
  exact ⟨heirs, members, x, y, hheirs, hmembers, hx, hy, hxname, hyname,
    hagree.2.2 (hsource ▸ horigin)⟩

/-- The heir of a class that uses another trait shows the trait that declares the method, and that
class shows the trait that it uses. -/
theorem origins_differ_feather :
    let log :=
      ((serve {} Markdown.toHtml [.facet feather .methods, .facet quill .methods]).run {}).1
    (∃ m ∈ Hierarchy.methods gallery feather, m.name = "draw" ∧
      m.declaringClass = quill.1.name ∧ m.source.1.kind = .trait) ∧
      ∃ (heirs members : List Method) (x y : Method),
        ⟨.facet feather .methods, .ok heirs⟩ ∈ log ∧
        ⟨.facet quill .methods, .ok members⟩ ∈ log ∧ x ∈ heirs ∧ y ∈ members ∧
        x.name = "draw" ∧ y.name = "draw" ∧ x.origin ≠ y.origin := by
  refine ⟨by decide +kernel, ?_⟩
  obtain ⟨heirs, x, hheirs, hx, hxname⟩ := exists_mem_log {} Markdown.toHtml
    [.facet feather .methods, .facet quill .methods] (by simp)
    (draws_gallery (e := feather) (by simp))
  obtain ⟨members, y, hmembers, hy, hyname⟩ := exists_mem_log {} Markdown.toHtml
    [.facet feather .methods, .facet quill .methods] (by simp)
    (draws_gallery (e := quill) (by simp))
  refine ⟨heirs, members, x, y, hheirs, hmembers, hx, hy, hxname, hyname, fun hsame => ?_⟩
  obtain ⟨t, ht, hink⟩ :=
    exists_origin_of_mem_log {} Markdown.toHtml _ "Ink" hheirs hx (by decide +kernel)
  obtain ⟨t', ht', hpen⟩ :=
    exists_origin_of_mem_log {} Markdown.toHtml _ "Pen" hmembers hy (by decide +kernel)
  obtain rfl : t = t' := Option.some.inj (ht.symm.trans (hsame.trans ht'))
  obtain ⟨n, hn, hlower⟩ := isNamed_iff.1 hink
  obtain ⟨n', hn', hlower'⟩ := isNamed_iff.1 hpen
  obtain rfl : n = n' := Option.some.inj (hn.symm.trans hn')
  exact absurd (hlower.symm.trans hlower') (by decide +kernel)

end PhpHandbook.Handbook
