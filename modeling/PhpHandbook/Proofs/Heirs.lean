import PhpHandbook.Proofs.Provenance

/-!
# Inherited methods

A declaration has one method of a name, without regard to capital and small letters.  What it
declares itself and what it takes over from traits comes before what it inherits, and is all its
own.  So a method of another declaration is inherited, and it is passed on as it is by every
declaration on the way: the declaration that has it shows the very same method.

## Main definitions

* `TakesOver`: a method that a declaration takes over from a used trait.
* `RulesTakeEffect`: every rule of a declaration for a trait takes a method over.

## Main statements

* `eq_of_mem_methods`: a declaration has one method of a name.
* `declaringClass_of_takesOver`: what is taken over from traits hides what is inherited.
* `mem_methods_of_declaringClass`: an inherited method is passed on as it is.
-/

namespace PhpHandbook.Hierarchy

open Registry (lower sameText)

/-! ### The first of each name -/

section KeepFirst

variable {α : Type} {key : α → String}

theorem key_not_mem_of_mem_keepFirstFrom {items : List α} {seen : List String} {a : α}
    (h : a ∈ keepFirstFrom key seen items) : key a ∉ seen := by
  induction items generalizing seen with
  | nil => cases h
  | cons x items ih =>
    rw [keepFirstFrom] at h
    split at h
    · exact ih h
    · next hx =>
      rcases List.mem_cons.1 h with rfl | h
      · simpa using hx
      · exact fun hmem => ih h (List.mem_cons_of_mem _ hmem)

/-- What is kept has different keys. -/
theorem eq_of_mem_keepFirstFrom {items : List α} {seen : List String} {a b : α}
    (ha : a ∈ keepFirstFrom key seen items) (hb : b ∈ keepFirstFrom key seen items)
    (hkey : key a = key b) : a = b := by
  induction items generalizing seen with
  | nil => cases ha
  | cons x items ih =>
    rw [keepFirstFrom] at ha hb
    split at ha
    · next hx =>
      rw [if_pos hx] at hb
      exact ih ha hb
    · next hx =>
      rw [if_neg hx] at hb
      rcases List.mem_cons.1 ha with rfl | ha
      · rcases List.mem_cons.1 hb with rfl | hb
        · rfl
        · exact absurd (hkey ▸ List.mem_cons_self) (key_not_mem_of_mem_keepFirstFrom hb)
      · rcases List.mem_cons.1 hb with rfl | hb
        · exact absurd (hkey ▸ List.mem_cons_self) (key_not_mem_of_mem_keepFirstFrom ha)
        · exact ih ha hb

/-- What is kept comes from the front if there is an item with its key. -/
theorem mem_left_of_mem_keepFirstFrom {xs ys : List α} {seen : List String} {a x : α}
    (ha : a ∈ keepFirstFrom key seen (xs ++ ys)) (hx : x ∈ xs) (hkey : key x = key a) :
    a ∈ xs := by
  induction xs generalizing seen with
  | nil => cases hx
  | cons y xs ih =>
    rw [List.cons_append, keepFirstFrom] at ha
    split at ha
    · next hy =>
      -- the first item is not kept, so it has another key
      have hne : x ≠ y := by
        rintro rfl
        rw [hkey, List.contains_iff_mem] at hy
        exact key_not_mem_of_mem_keepFirstFrom ha hy
      exact List.mem_cons_of_mem y (ih ha ((List.mem_cons.1 hx).resolve_left hne))
    · rcases List.mem_cons.1 ha with rfl | ha
      · exact List.mem_cons_self
      · have hne : x ≠ y := by
          rintro rfl
          exact key_not_mem_of_mem_keepFirstFrom ha (hkey ▸ List.mem_cons_self)
        exact List.mem_cons_of_mem y (ih ha ((List.mem_cons.1 hx).resolve_left hne))

end KeepFirst

variable {reg : Registry} {e : reg.Entry} {m r : VisibleMethod reg}

/-- **A declaration has one method of a name.** -/
theorem eq_of_mem_methods (hm : m ∈ methods reg e) (hr : r ∈ methods reg e)
    (hname : lower m.name = lower r.name) : m = r := by
  rw [methods, collectFrom_of_not_mem _ List.not_mem_nil, ← keepFirst_flatten] at hm hr
  exact eq_of_mem_keepFirstFrom hm hr hname

/-! ### Methods of traits -/

/-- A declaration **takes over** a method from a used trait. -/
def TakesOver (e : reg.Entry) (m : VisibleMethod reg) : Prop :=
  ∃ t ∈ traits reg e.1, m ∈ importMethods e.1 (traitAliases reg e.1) t.1.name (methods reg t)

/-- **Every rule of a declaration for a trait takes effect**: the trait is used, and a method is
taken over from it under the new name. -/
def RulesTakeEffect (e : reg.Entry) : Prop :=
  ∀ a ∈ traitAliases reg e.1, ∀ name, a.traitName = some name →
    ∃ t ∈ traits reg e.1, sameText name t.1.name = true ∧
      ∃ r ∈ importMethods e.1 (traitAliases reg e.1) t.1.name (methods reg t),
        sameText r.name a.newName = true

/-- A method of a used trait that no rule excludes is taken over under its name. -/
theorem exists_takesOver {t : reg.Entry} (ht : t ∈ traits reg e.1) {name : String}
    (hmethod : hasMethod reg t name = true)
    (hallowed : excludesTraitMethod e.1 t.1.name name = false) :
    ∃ r, TakesOver e r ∧ lower r.name = lower name := by
  obtain ⟨m, hm, hname⟩ := List.any_eq_true.1 hmethod
  have hlower : lower m.name = lower name := beq_iff_eq.1 hname
  have hexcludes : excludesTraitMethod e.1 t.1.name m.name = false := by
    rw [← hallowed, excludesTraitMethod, excludesTraitMethod]
    simp only [sameText, hlower]
  refine ⟨takeOver e.1 (traitAliases reg e.1) t.1.name m, ⟨t, ht, ?_⟩, hlower⟩
  refine List.mem_append_left _ (List.mem_map_of_mem (List.mem_filter.2 ⟨hm, ?_⟩))
  rw [hexcludes]
  rfl

/-- **What is taken over from traits hides what is inherited.** -/
theorem declaringClass_of_takesOver (hacyclic : AcyclicFrom e) (hm : m ∈ methods reg e)
    (hr : TakesOver e r) (hname : lower r.name = lower m.name) : m.declaringClass = e.1.name := by
  obtain ⟨t, ht, hr⟩ := hr
  rw [methods, collectFrom_nil_eq methodRules_local hacyclic, ← keepFirst_flatten,
    MemberRules.sources, List.append_assoc, List.flatten_append] at hm
  have hleft : r ∈ (ownMethods e :: (traits reg e.1).map fun t =>
      importMethods e.1 (traitAliases reg e.1) t.1.name (methods reg t)).flatten :=
    List.mem_flatten.2 ⟨_, List.mem_cons_of_mem _ (List.mem_map_of_mem ht), hr⟩
  have hmem := mem_left_of_mem_keepFirstFrom hm hleft hname
  rcases List.mem_append.1 hmem with hown | htaken
  · obtain ⟨d, -, rfl⟩ := List.mem_map.1 hown
    rfl
  · obtain ⟨source, hsource, htaken⟩ := List.mem_flatten.1 htaken
    obtain ⟨u, -, rfl⟩ := List.mem_map.1 hsource
    obtain ⟨-, -, -, -, hdeclaring, -⟩ := mem_importMethods htaken
    exact hdeclaring

/-! ### Methods of ancestors -/

/-- A declaration has what it declares or takes over; everything else is inherited. -/
theorem declaringClass_or_inherited {path : List String}
    (h : m ∈ collectFrom (methodRules reg) path e) :
    e.1.key ∉ path ∧ (m.declaringClass = e.1.name ∨
      ∃ d, Inherits e d ∧ m ∈ collectFrom (methodRules reg) (e.1.key :: path) d) := by
  obtain ⟨hpath,
    hown | ⟨t, -, htrait⟩ | ⟨p, hp, hparent, -⟩ | ⟨i, hi, hinterface⟩⟩ :=
    mem_collectFrom h
  · obtain ⟨d, -, rfl⟩ := List.mem_map.1 hown
    exact ⟨hpath, .inl rfl⟩
  · obtain ⟨-, -, -, -, hdeclaring, -⟩ := mem_importMethods htrait
    exact ⟨hpath, .inl hdeclaring⟩
  · exact ⟨hpath, .inr ⟨p, .inl hp, hparent⟩⟩
  · exact ⟨hpath, .inr ⟨i, .inr hi, hinterface⟩⟩

/-- A trait inherits nothing. -/
theorem declaringClass_of_trait (htrait : e.1.kind = .trait) (hm : m ∈ methods reg e) :
    m.declaringClass = e.1.name :=
  (declaringClass_or_inherited hm).2.resolve_right fun ⟨_, hd, _⟩ =>
    not_inherits_of_trait htrait hd

/-- **An inherited method is passed on as it is**: the declaration that has it shows it as well. -/
theorem mem_methods_of_declaringClass {path : List String} {e d : reg.Entry}
    (hacyclic : AcyclicFrom e) (hoff : OffPath e path)
    (hm : m ∈ collectFrom (methodRules reg) path e) (hd : m.declaringClass = d.1.name) :
    m ∈ methods reg d := by
  obtain ⟨hpath, hown | ⟨x, hx, hinherited⟩⟩ := declaringClass_or_inherited hm
  · obtain rfl : e = d := by
      have hfind := Registry.find?_name e
      rw [← hown, hd, Registry.find?_name] at hfind
      exact (Option.some.inj hfind).symm
    rwa [methods, collectFrom_congr methodRules_local hacyclic (offPath_nil e) hoff]
  · exact mem_methods_of_declaringClass (hacyclic.leads hx.leads) (hoff.leads hacyclic hx.leads)
      hinherited hd
termination_by reg.unvisited path
decreasing_by exact Registry.unvisited_cons_lt e.2 hpath

end PhpHandbook.Hierarchy
