import PhpHandbook.Proofs.Flattening
import PhpHandbook.Proofs.SharedAnchors

/-!
# Methods in natural order

Natural order is linear, so there is one way only to put different texts in order.  A class shows
its methods sorted by their names, which are all different: the list of names ascends strictly, and
it is known as soon as it is known which names there are.  In which order the methods are written,
and where they come from, makes no difference.

## Main definitions

* `Precedes`: a text stands before another one.
* `ListsMethods`: what a list of the methods of a class is.

## Main statements

* `eq_of_pairwise_precedes`: texts can be put in order in one way only.
* `Query.ensures_methods_listed`: in every sound run a class lists its methods.
* `methods_in_natural_order`: natural order is a linear order, and methods are listed in it.
-/

namespace PhpHandbook

namespace Text

/-- **A text stands before another one** in natural order. -/
def Precedes (a b : String) : Prop :=
  compareNatural a b = .lt

theorem Precedes.trans {a b c : String} (hab : Precedes a b) (hbc : Precedes b c) : Precedes a c :=
  Std.TransCmp.lt_trans hab hbc

theorem Precedes.ne {a b : String} (h : Precedes a b) : a ≠ b := by
  intro hab
  rw [Precedes, compareNatural_eq_eq_iff.2 hab] at h
  cases h

theorem Precedes.asymm {a b : String} (h : Precedes a b) : ¬Precedes b a :=
  fun hba => (h.trans hba).ne rfl

theorem precedes_of_naturalLE {a b : String} (h : naturalLE a b = true) (hne : a ≠ b) :
    Precedes a b := by
  rw [naturalLE] at h
  unfold Precedes
  cases hab : compareNatural a b with
  | lt => rfl
  | eq => exact absurd (compareNatural_eq_eq_iff.1 hab) hne
  | gt =>
    rw [hab] at h
    cases h

/-- **Items with different labels ascend strictly** after sorting. -/
theorem pairwise_precedes_sortNaturalBy {α : Type} {label : α → String} {items : List α}
    (h : (items.map label).Nodup) :
    ((sortNaturalBy label items).map label).Pairwise Precedes := by
  have hnodup := List.pairwise_map.1 (((sortNaturalBy_perm label items).map label).nodup_iff.2 h)
  refine List.pairwise_map.2 (((pairwise_sortNaturalBy label items).and hnodup).imp ?_)
  exact fun ⟨hle, hne⟩ => precedes_of_naturalLE hle hne

/-- **Texts can be put in order in one way only.** -/
theorem eq_of_pairwise_precedes {names names' : List String} (h : names.Pairwise Precedes)
    (h' : names'.Pairwise Precedes) (hsame : ∀ name, name ∈ names ↔ name ∈ names') :
    names = names' := by
  have hperm : names.Perm names' :=
    (List.perm_ext_iff_of_nodup (h.imp Precedes.ne) (h'.imp Precedes.ne)).2 hsame
  exact hperm.eq_of_pairwise (fun _ _ _ _ hab hba => absurd hba hab.asymm) h h'

end Text

namespace Handbook

open Text (compareNatural Precedes)

variable {reg : Registry}

/-- **A list of the methods of a class**: each method that is visible there is listed once, and the
names ascend strictly. -/
structure ListsMethods (e : reg.Entry) (members : List Method) : Prop where
  perm : (members.map (·.name)).Perm ((Hierarchy.methods reg e).map (·.name))
  ascending : (members.map (·.name)).Pairwise Precedes

namespace Query

variable {before : Contents reg}

theorem yields_findMethods_listed (c : Chapter reg) :
    c.findMethods.Yields (ListsMethods c.entry) := by
  have hname (m : Hierarchy.VisibleMethod reg) : (describeMethod c m).Yields fun d =>
      d.name = m.name := fun run d hd => (yields_describeMethod_named c m run d hd).1
  refine (yields_mapM _ Method.name hname _).bind fun members hnames => ?_
  have hnodup : (members.map Method.name).Nodup := hnames ▸ Hierarchy.nodup_method_names c.entry
  have hperm := (Text.sortNaturalBy_perm Method.name members).map Method.name
  exact yields_pure ⟨hnames ▸ hperm, Text.pairwise_precedes_sortNaturalBy hnodup⟩

/-- **In every sound run a class lists its methods.** -/
theorem ensures_methods_listed {c : Chapter reg} (hc : before.get? c.id = some c) :
    Ensures before (c.facet .methods) (ListsMethods c.entry) := by
  refine ensures_remembered .methods Chapter.findMethods (fun _ => rfl) agree_findMethods
    (fun e members members' herase h => ?_) yields_findMethods_listed hc
  -- names are no numbers of chapters
  have hnames : members.map Method.name = members'.map Method.name :=
    map_anchor_of_erase_eq (fun _ => rfl) herase
  exact ⟨hnames ▸ h.perm, hnames ▸ h.ascending⟩

end Query

theorem listsMethods_of_mem_log (rules : Links) (toHtml : String → String)
    (asked : List (Inquiry reg)) {e : reg.Entry} {members : List Method}
    (h : ⟨.facet e .methods, .ok members⟩ ∈ ((serve rules toHtml asked).run {}).1) :
    ListsMethods e members :=
  Query.holds_of_mem_log rules toHtml asked .methods (P := ListsMethods)
    Query.ensures_methods_listed h

/-- **Natural order is linear, and methods are listed in it.**  Texts tie only with themselves,
turning a comparison around turns its outcome around, and standing before is transitive.  After any
sequence of inquiries, let a class have been asked for its methods and have answered with a list.
Each method that is visible on the class is listed once, and the names ascend strictly.  Where a
class, of these or of other sources, in which members may be written in another order, has methods
of the same names, the names are listed in the same order. -/
theorem methods_in_natural_order :
    (∀ a b, compareNatural a b = .eq ↔ a = b) ∧
      (∀ a b, compareNatural b a = (compareNatural a b).swap) ∧
      (∀ a b c, compareNatural a b = .lt → compareNatural b c = .lt →
        compareNatural a c = .lt) ∧
      ∀ (reg : Registry) (rules : Links) (toHtml : String → String) (asked : List (Inquiry reg))
        (e : reg.Entry) (members : List Method), ⟨.facet e .methods, .ok members⟩
          ∈ ((serve rules toHtml asked).run {}).1 →
        (members.map (·.name)).Perm ((Hierarchy.methods reg e).map (·.name)) ∧
        (members.map (·.name)).Pairwise (fun a b => compareNatural a b = .lt) ∧
        ∀ (reg' : Registry) (rules' : Links) (toHtml' : String → String)
    (asked' : List (Inquiry reg')) (e' : reg'.Entry)
          (members' : List Method),
          ⟨.facet e' .methods, .ok members'⟩ ∈ ((serve rules' toHtml' asked').run {}).1 →
          (∀ name, name ∈ (Hierarchy.methods reg e).map (·.name) ↔
            name ∈ (Hierarchy.methods reg' e').map (·.name)) →
          members.map (·.name) = members'.map (·.name) := by
  refine ⟨fun _ _ => Text.compareNatural_eq_eq_iff, Text.compareNatural_swap,
    fun _ _ _ => Precedes.trans, fun reg rules toHtml asked e members hlog => ?_⟩
  have hlists := listsMethods_of_mem_log rules toHtml asked hlog
  refine ⟨hlists.perm, hlists.ascending,
    fun reg' rules' toHtml' asked' e' members' hlog' hsame => ?_⟩
  have hlists' := listsMethods_of_mem_log rules' toHtml' asked' hlog'
  refine Text.eq_of_pairwise_precedes hlists.ascending hlists'.ascending fun name => ?_
  rw [hlists.perm.mem_iff, hlists'.perm.mem_iff]
  exact hsame name

/-- A registry with one class, which has the given methods. -/
def shelf (methods : List String) : Registry where
  entries := [Hierarchy.sketch .plainClass "Shelf" methods [] [] []]
  distinct := List.nodup_singleton _
  formed := List.forall_mem_singleton.2
    ⟨rfl, rfl, show Source.beginsName "Shelf" = true by decide +kernel, fun _ h => nomatch h⟩

/-- The class in that registry. -/
def theShelf (methods : List String) : (shelf methods).Entry :=
  ⟨Hierarchy.sketch .plainClass "Shelf" methods [] [] [], List.mem_singleton_self _⟩

/-- The class answers for two orders of its methods. -/
theorem exists_methods_mem_log {methods : List String}
    (h : methods ∈ [["item10", "item2", "item02"], ["item2", "item02", "item10"]]) :
    ∃ members : List Method, ⟨.facet (theShelf methods) .methods, .ok members⟩ ∈
      ((serve {} Markdown.toHtml [.facet (theShelf methods) .methods]).run {}).1 := by
  have hanswered : (firstAnswer (theShelf methods) .methods).toOption.isSome = true := by
    have hinterfaces : Hierarchy.interfaceNames (shelf methods) (theShelf methods).1 = [] := by
      have hnear : Hierarchy.nearInterfaces (shelf methods) (theShelf methods).1 = [] := by
        simp only [List.mem_cons, List.not_mem_nil, or_false] at h
        rcases h with rfl | rfl <;> decide +kernel
      rw [Hierarchy.interfaceNames, hnear, Hierarchy.closeInterfaces]
    have hopened : ((chapterOf (theShelf methods)).run {}).1 = ⟨⟨0⟩, theShelf methods⟩ :=
      rfl
    rw [firstAnswer_eq Query.facet_methods, hopened]
    -- gathering interfaces does not compute, but there are none to describe
    unfold Chapter.findMethods describeMethod
    simp only [hinterfaces]
    simp only [List.mem_cons, List.not_mem_nil, or_false] at h
    rcases h with rfl | rfl <;> decide +kernel
  cases hfirst : firstAnswer (theShelf methods) .methods with
  | error error =>
    rw [hfirst] at hanswered
    cases hanswered
  | ok first =>
    obtain ⟨members, hlog, -⟩ :=
      exists_answer_mem_log {} Markdown.toHtml _ (List.mem_singleton_self _) hfirst
    exact ⟨members, hlog⟩

/-- A class lists its methods in the same order wherever they are written. -/
theorem methods_in_natural_order_shelf :
    let e := theShelf ["item10", "item2", "item02"]
    let e' := theShelf ["item2", "item02", "item10"]
    ∃ members members' : List Method,
      ⟨.facet e .methods, .ok members⟩
        ∈ ((serve {} Markdown.toHtml [.facet e .methods]).run {}).1 ∧
      ⟨.facet e' .methods, .ok members'⟩
        ∈ ((serve {} Markdown.toHtml [.facet e' .methods]).run {}).1 ∧
      members.map (·.name) = ["item02", "item2", "item10"] ∧
      members.map (·.name) = members'.map (·.name) := by
  intro e e'
  have hnames : (Hierarchy.methods _ e).map (·.name) = ["item10", "item2", "item02"] := by
    decide +kernel
  have hnames' : (Hierarchy.methods _ e').map (·.name) = ["item2", "item02", "item10"] := by
    decide +kernel
  obtain ⟨members, hlog⟩ := @exists_methods_mem_log ["item10", "item2", "item02"] (by simp)
  obtain ⟨members', hlog'⟩ := @exists_methods_mem_log ["item2", "item02", "item10"] (by simp)
  obtain ⟨-, -, -, hlisted⟩ := methods_in_natural_order
  obtain ⟨hperm, hascending, hsame⟩ := hlisted _ {} Markdown.toHtml _ e members hlog
  refine ⟨members, members', hlog, hlog', ?_, hsame _ {} Markdown.toHtml _ e' members' hlog' ?_⟩
  · have hordered :
        ["item02", "item2", "item10"].Pairwise (fun a b => compareNatural a b = .lt) := by
      decide +kernel
    refine Text.eq_of_pairwise_precedes hascending hordered fun name => ?_
    rw [hperm.mem_iff, hnames]
    simp only [List.mem_cons, List.not_mem_nil, or_false]
    tauto
  · rw [hnames, hnames']
    simp only [List.mem_cons, List.not_mem_nil, or_false]
    tauto

end Handbook

end PhpHandbook
