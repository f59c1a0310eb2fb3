import PhpHandbook.Proofs.Inquiries
import PhpHandbook.Proofs.PageFiles
import PhpHandbook.Proofs.Provenance
import PhpHandbook.Proofs.WrittenNames

/-!
# Anchors need no escaping

The anchor of a member is printed as it stands.  It is made of the member's name, and names come
from sources: whatever is read there as the name of a constant, of a property, of a method or of a
renamed method is a word, and a word in kebab case has none of the characters with a meaning in
markup.

A page is made in a run that may remember its members from an earlier inquiry.  What is remembered
is, up to the numbers of chapters, what is found out anew, and anchors hold no such numbers.

## Main definitions

* `Anchored`: anchors that escaping leaves as they are.
* `Gather.Ensures`, `Query.Ensures`: what holds of the answer that is given in any sound run.

## Main statements

* `markup_anchor`: the anchor of a word needs no escaping.
* `forall_mem_collectFrom`: what own members have and traits give away, all visible members have.
* `Query.ensures_facet`: a facet has, in every sound run, the property that working it out ensures.
* `Query.ensures_sheet`: all members that the page of a class shows have anchors of this kind.
-/

namespace PhpHandbook

open Source (IsWord isNamePart)

/-! ### Words in kebab case -/

/-- The characters with a meaning in markup. -/
def markupSigns : List Char :=
  ['&', '<', '>', '"', '\'']

/-- Whether a text has none of these characters. -/
def isUnsigned (s : String) : Bool :=
  s.toList.all (· ∉ markupSigns)

theorem Text.markup_eq_self {s : String} (hs : ∀ c ∈ s.toList, c ∉ markupSigns) :
    Text.markup s = s := by
  have hchar : ∀ c ∉ markupSigns, Text.markupChar c = [c] := by
    intro c hc
    unfold Text.markupChar
    split
    all_goals first | rfl | exact absurd hc (by decide)
  have hall : ∀ cs : List Char, (∀ c ∈ cs, c ∉ markupSigns) →
      cs.flatMap Text.markupChar = cs := by
    intro cs hcs
    induction cs with
    | nil => rfl
    | cons c cs ih =>
      rw [List.flatMap_cons, hchar c (hcs c List.mem_cons_self),
        ih fun d hd => hcs d (List.mem_cons_of_mem c hd), List.singleton_append]
  rw [Text.markup, hall s.toList hs, String.ofList_toList]

/-- **The anchor of a word needs no escaping.** -/
theorem markup_anchor {front name : String} (hfront : isUnsigned front = true)
    (hname : IsWord name) : Text.markup (front ++ Text.kebab name) = front ++ Text.kebab name := by
  have hsigns : markupSigns.all (fun c =>
      (c ≠ '\x00' ∧ c ≠ '-') ∧ c.toNat < 65 ∧ isNamePart c = false) = true := by
    decide +kernel
  refine Text.markup_eq_self fun c hc hsign => ?_
  rw [String.toList_append] at hc
  rcases List.mem_append.1 hc with hc | hc
  · exact of_decide_eq_true (List.all_eq_true.1 hfront c hc) hsign
  · obtain ⟨hne, hlow, hpart⟩ := of_decide_eq_true (List.all_eq_true.1 hsigns c hsign)
    have hword := hname c (Text.mem_of_mem_kebab hne hlow hc)
    rw [hpart] at hword
    cases hword

/-! ### The names of members -/

namespace Hierarchy

variable {reg : Registry} {α : Type}

/-- **What own members have and traits give away, all visible members have.** -/
theorem forall_mem_collectFrom {rules : MemberRules reg α} {P : α → Prop}
    (hown : ∀ e, ∀ a ∈ rules.own e, P a)
    (htrait : ∀ e t provided, (∀ a ∈ provided, P a) →
      ∀ a ∈ rules.fromTrait e t provided, P a)
    (path : List String) (e : reg.Entry) : ∀ a ∈ collectFrom rules path e, P a := by
  intro a ha
  obtain ⟨hpath, hmem | ⟨t, -, hmem⟩ | ⟨p, -, hmem, -⟩ | ⟨i, -, hmem⟩⟩ :=
    mem_collectFrom ha
  · exact hown e a hmem
  · exact htrait e t _ (forall_mem_collectFrom hown htrait _ t) a hmem
  · exact forall_mem_collectFrom hown htrait _ p a hmem
  · exact forall_mem_collectFrom hown htrait _ i a hmem
termination_by reg.unvisited path
decreasing_by all_goals exact Registry.unvisited_cons_lt e.2 hpath

variable (hspelled : ∀ e : reg.Entry, e.1.decl.Spelled)

include hspelled

theorem isWord_of_mem_constants {e : reg.Entry} {c : VisibleConstant reg}
    (hc : c ∈ constants reg e) : IsWord c.name := by
  refine forall_mem_collectFrom (P := fun c => IsWord c.name) ?_ ?_ [] e c hc
  · intro e c hc
    rcases List.mem_append.1 hc with hc | hc
    · obtain ⟨d, hd, rfl⟩ := List.mem_map.1 hc
      exact (hspelled e).cases d hd
    · obtain ⟨d, hd, rfl⟩ := List.mem_map.1 hc
      exact (hspelled e).constants d hd
  · intro e t provided hprovided c hc
    obtain ⟨d, hd, rfl⟩ := List.mem_map.1 hc
    exact hprovided d hd

theorem isWord_of_mem_properties {e : reg.Entry} {p : VisibleProperty reg}
    (hp : p ∈ properties reg e) : IsWord p.property.name.name := by
  refine forall_mem_collectFrom (P := fun p => IsWord p.property.name.name) ?_ ?_ [] e p hp
  · intro e p hp
    rcases List.mem_append.1 hp with hp | hp
    · obtain ⟨d, hd, rfl⟩ := List.mem_map.1 hp
      exact (hspelled e).properties d hd
    · -- a parameter of the constructor
      obtain ⟨param, hparam, hsome⟩ := List.mem_filterMap.1 hp
      obtain ⟨modifiers, -, rfl⟩ := Option.map_eq_some_iff.1 hsome
      cases hconstructor : constructor? e.1 with
      | none => simp [hconstructor] at hparam
      | some m =>
        rw [hconstructor] at hparam
        exact ((hspelled e).methods m (List.mem_of_find?_eq_some hconstructor)).params param hparam
  · intro e t provided hprovided p hp
    obtain ⟨d, hd, rfl⟩ := List.mem_map.1 hp
    exact hprovided d hd

theorem isWord_of_mem_methods {e : reg.Entry} {m : VisibleMethod reg} (hm : m ∈ methods reg e) :
    IsWord m.name := by
  refine forall_mem_collectFrom (P := fun m => IsWord m.name) ?_ ?_ [] e m hm
  · intro e m hm
    obtain ⟨d, hd, rfl⟩ := List.mem_map.1 hm
    exact ((hspelled e).methods d hd).name
  · intro e t provided hprovided r hr
    obtain ⟨m, hm, -, -, -, hname | ⟨use, huse, traitName, method, visibility, hrule⟩⟩ :=
      mem_importMethods hr
    · exact hname ▸ hprovided m hm
    · exact (hspelled e).adaptations use huse _ hrule

end Hierarchy

namespace Handbook

open Hierarchy (VisibleConstant VisibleProperty VisibleMethod)

variable {reg : Registry} {α β : Type}

/-! ### The anchors of members -/

/-- **Anchors that escaping leaves as they are.** -/
def Anchored (anchors : List String) : Prop :=
  ∀ id ∈ anchors, Text.markup id = id

namespace Query

theorem yields_describeConstant (c : VisibleConstant reg) :
    (describeConstant c).Yields fun d => d.anchor = "constant-" ++ Text.kebab c.name :=
  (yields_true _).bind fun _ _ => (yields_true _).bind fun _ _ => (yields_true _).bind fun _ _ =>
    (yields_true _).bind fun _ _ => yields_pure rfl

theorem yields_describeProperty (p : VisibleProperty reg) :
    (describeProperty p).Yields fun d =>
      d.anchor = "property-" ++ Text.kebab p.property.name.name :=
  (yields_true _).bind fun _ _ => (yields_true _).bind fun _ _ => (yields_true _).bind fun _ _ =>
    (yields_true _).bind fun _ _ => yields_pure rfl

/-- A method is described under its name, with the anchor of that name. -/
theorem yields_describeMethod_named (c : Chapter reg) (m : VisibleMethod reg) :
    (describeMethod c m).Yields fun d => d.name = m.name ∧
      d.anchor = "method-" ++ Text.kebab m.name :=
  (yields_true _).bind fun _ _ => (yields_true _).bind fun _ _ => (yields_true _).bind fun _ _ =>
    (yields_true _).bind fun _ _ => (yields_true _).bind fun _ _ => (yields_true _).bind fun _ _ =>
      (yields_true _).bind fun _ _ => (yields_true _).bind fun _ _ =>
        (yields_true _).bind fun _ _ => yields_pure ⟨rfl, rfl⟩

theorem yields_describeMethod (c : Chapter reg) (m : VisibleMethod reg) :
    (describeMethod c m).Yields fun d => d.anchor = "method-" ++ Text.kebab m.name :=
  fun run d hd => (yields_describeMethod_named c m run d hd).2

/-- Members that are called by words are described with anchors of this kind. -/
theorem yields_anchored {γ : Type} {describe : γ → Query reg α} {anchor : α → String}
    {front : String} (hfront : isUnsigned front = true) {name : γ → String}
    (hdescribe : ∀ m, (describe m).Yields fun d => anchor d = front ++ Text.kebab (name m))
    {members : List γ} (hmembers : ∀ m ∈ members, IsWord (name m)) :
    (members.mapM describe).Yields fun ds => Anchored (ds.map anchor) := by
  have hall := yields_mapM (fun m => front ++ Text.kebab (name m)) anchor hdescribe members
  intro run ds hds
  rw [hall run ds hds]
  exact List.forall_mem_map.2 fun m hm => markup_anchor hfront (hmembers m hm)

section Members

variable (hspelled : ∀ e : reg.Entry, e.1.decl.Spelled)

include hspelled

theorem yields_constants (e : reg.Entry) :
    Yields ((Hierarchy.constants reg e).mapM describeConstant) fun members =>
      Anchored (members.map (·.anchor)) :=
  yields_anchored (by decide) yields_describeConstant fun _ =>
    Hierarchy.isWord_of_mem_constants hspelled

theorem yields_properties (e : reg.Entry) :
    Yields ((Hierarchy.properties reg e).mapM describeProperty) fun members =>
      Anchored (members.map (·.anchor)) :=
  yields_anchored (by decide) yields_describeProperty fun _ =>
    Hierarchy.isWord_of_mem_properties hspelled

theorem yields_findMethods (c : Chapter reg) :
    c.findMethods.Yields fun members => Anchored (members.map (·.anchor)) := by
  have hall : Yields ((Hierarchy.methods reg c.entry).mapM (describeMethod c)) fun members =>
      Anchored (members.map (·.anchor)) :=
    yields_anchored (by decide) (yields_describeMethod c) fun _ =>
      Hierarchy.isWord_of_mem_methods hspelled
  refine hall.bind fun members hmembers => yields_pure (List.forall_mem_map.2 fun m hm => ?_)
  -- sorting moves the members only
  exact hmembers m.anchor (List.mem_map_of_mem (List.mem_mergeSort.1 hm))

end Members

end Query

/-! ### Answers in sound runs -/

/-- **What a query ensures** from a table of contents on: in a sound run its answer has a property
that may refer to the table of contents at the end, and it leaves a sound run behind. -/
def Gather.Ensures (before : Contents reg) (q : Gather reg α)
    (P : Contents reg → α → Prop) : Prop :=
  ∀ run : Run reg, run.Sound → before ≤ run.contents →
    (q.run run).2.Sound ∧ run.contents ≤ (q.run run).2.contents ∧
      P (q.run run).2.contents (q.run run).1

namespace Gather

variable {before : Contents reg}

/-- One query after another. -/
theorem Ensures.bind {q : Gather reg α} {k : α → Gather reg β}
    {P : Contents reg → α → Prop} {Q : Contents reg → β → Prop} (h : Ensures before q P)
    (hk : ∀ contents, before ≤ contents → ∀ a, P contents a → Ensures contents (k a) Q) :
    Ensures before (q >>= k) Q := by
  intro run hrun hbefore
  obtain ⟨hsound, hle, ha⟩ := h run hrun hbefore
  obtain ⟨hsound', hle', hb⟩ := hk _ (hbefore.trans hle) _ ha (q.run run).2 hsound (le_refl _)
  exact ⟨hsound', hle.trans hle', hb⟩

/-- A query that agrees with itself leaves sound runs behind. -/
theorem ensures_of_agree [Linked α] {q : Gather reg α} (h : Agree (before, before) q q) :
    Ensures before q fun _ _ => True := by
  intro run hrun hbefore
  obtain ⟨hsound, -, hle, -⟩ := h run run hrun hrun ⟨hbefore, hbefore⟩
  exact ⟨hsound, hle.1, trivial⟩

theorem ensures_chapterOf (e : reg.Entry) :
    Ensures before (chapterOf e) fun contents c => contents.get? c.id = some c ∧ c.entry = e := by
  intro run hrun _
  obtain ⟨hsound, hle, hget, hentry⟩ := hrun.contents.enter e
  exact ⟨hrun.withContents hsound hle, hle, hget, hentry⟩

end Gather

/-- What a query that may fail ensures of its answer, if it has one. -/
def Query.Ensures (before : Contents reg) (q : Query reg α) (P : α → Prop) : Prop :=
  Gather.Ensures before q.run fun _ x => ∀ a, x = .ok a → P a

namespace Query

variable {before : Contents reg}

theorem Ensures.bind {q : Query reg α} {k : α → Query reg β} {P : α → Prop}
    {Q : β → Prop} (h : Ensures before q P)
    (hk : ∀ contents, before ≤ contents → ∀ a, P a → Ensures contents (k a) Q) :
    Ensures before (q >>= k) Q := by
  rw [Ensures, ExceptT.run_bind]
  refine Gather.Ensures.bind h fun contents hle x hx => ?_
  cases x with
  | ok a => exact hk contents hle a (hx a rfl)
  | error e => exact fun run hrun _ => ⟨hrun, le_refl _, fun a ha => nomatch ha⟩

theorem ensures_pure {P : α → Prop} {a : α} (h : P a) :
    Ensures before (pure a : Query reg α) P := by
  intro run hrun _
  refine ⟨hrun, le_refl _, fun b hb => ?_⟩
  cases hb
  exact h

theorem ensures_of_agree [Linked α] {q : Query reg α} (h : Agree (before, before) q q) :
    Ensures before q fun _ => True := by
  intro run hrun hbefore
  obtain ⟨hsound, hle, -⟩ := Gather.ensures_of_agree h run hrun hbefore
  exact ⟨hsound, hle, fun _ _ => trivial⟩

/-- **A facet has, in every sound run, the property that working it out ensures**, if numbers do not
matter for the property. -/
theorem ensures_facet (facet : Facet) (work : Chapter reg → Query reg facet.Answer)
    (hfacet : ∀ c, c.facet facet = remembered c facet (work c))
    (hwork : ∀ (w : Tables reg) (c₁ c₂ : Chapter reg), Match w c₁ c₂ →
      Query.Agree w (work c₁) (work c₂))
    {P : reg.Entry → facet.Answer → Prop}
    (herase : ∀ e a b, erase a = erase b → P e a → P e b)
    (hensures : ∀ (before : Contents reg) (c : Chapter reg), before.get? c.id = some c →
      Ensures before (work c) (P c.entry)) {c : Chapter reg} (hc : before.get? c.id = some c) :
    Ensures before (c.facet facet) (P c.entry) := by
  intro run hrun hbefore
  rw [hfacet]
  obtain ⟨hsound, hle, -, hanswer⟩ :=
    remembered_of_sound hfacet hwork hrun (Contents.get?_mono hbefore hc)
  refine ⟨hsound, hle, fun a ha => ?_⟩
  rw [ha, firstAnswer_eq hfacet] at hanswer
  -- the first answer is an answer of the work, and numbers are all that it differs in
  obtain ⟨hsound₀, -, hget₀, hentry₀⟩ :=
    Gather.ensures_chapterOf c.entry ({} : Run reg) Run.sound_empty (le_refl _)
  obtain ⟨-, -, hfirst⟩ := hensures _ _ hget₀ _ hsound₀ (le_refl _)
  cases hwork₀ :
    ((work ((chapterOf c.entry).run {}).1).run.run ((chapterOf c.entry).run {}).2).1 with
  | ok b =>
    rw [hwork₀] at hanswer
    exact herase c.entry b a (Except.ok.inj hanswer).symm (hentry₀ ▸ hfirst b hwork₀)
  | error e =>
    rw [hwork₀] at hanswer
    cases hanswer

/-- A facet has the property that every answer of working it out has. -/
theorem ensures_remembered (facet : Facet) (work : Chapter reg → Query reg facet.Answer)
    (hfacet : ∀ c, c.facet facet = remembered c facet (work c))
    (hwork : ∀ (w : Tables reg) (c₁ c₂ : Chapter reg), Match w c₁ c₂ →
      Query.Agree w (work c₁) (work c₂))
    {P : reg.Entry → facet.Answer → Prop}
    (herase : ∀ e a b, erase a = erase b → P e a → P e b)
    (hyields : ∀ c, (work c).Yields (P c.entry)) {c : Chapter reg}
    (hc : before.get? c.id = some c) :
    Ensures before (c.facet facet) (P c.entry) := by
  refine ensures_facet facet work hfacet hwork herase ?_ hc
  intro before c hc run hrun hbefore
  obtain ⟨hsound, hle, -⟩ :=
    ensures_of_agree (hwork (before, before) c c (.chapter hc hc rfl)) run hrun hbefore
  exact ⟨hsound, hle, hyields c run⟩

end Query

/-! ### Answers in a log -/

/-- What a facet ensures in every sound run holds of each of its answers in a log. -/
theorem Query.holds_of_mem_log (rules : Links) (toHtml : String → String)
    (asked : List (Inquiry reg)) (facet : Facet) {e : reg.Entry}
    {P : reg.Entry → facet.Answer → Prop}
    (hfacet : ∀ {before : Contents reg} {c : Chapter reg}, before.get? c.id = some c →
      Ensures before (c.facet facet) (P c.entry)) {answer : facet.Answer}
    (hlog : ⟨.facet e facet, .ok answer⟩ ∈ ((serve rules toHtml asked).run {}).1) :
    P e answer := by
  obtain ⟨run, hrun, hanswer, -⟩ := (serve_spec rules toHtml asked Run.sound_empty).2.2 _ hlog
  have hensures : Gather.Ensures run.contents ((Inquiry.facet e facet).perform rules toHtml)
      fun _ given => ∀ answer, given = .ok answer → P e answer := by
    refine (Gather.ensures_chapterOf e).bind fun contents _ c ⟨hget, hentry⟩ => ?_
    rw [← hentry]
    exact hfacet hget
  exact (hensures run hrun (le_refl _)).2.2 answer hanswer.symm

/-- A facet that has an answer in a run of its own has one in every run that is asked for it, the
same one up to numbers. -/
theorem exists_answer_mem_log (rules : Links) (toHtml : String → String)
    (asked : List (Inquiry reg)) {e : reg.Entry} {facet : Facet} (hasked : .facet e facet ∈ asked)
    {first : facet.Answer} (hfirst : firstAnswer e facet = .ok first) :
    ∃ answer, ⟨.facet e facet, .ok answer⟩ ∈ ((serve rules toHtml asked).run {}).1 ∧
      erase answer = erase first := by
  rw [← map_inquiry_serve rules toHtml asked {}] at hasked
  obtain ⟨⟨inquiry, answer⟩, hlog, rfl⟩ := List.mem_map.1 hasked
  obtain ⟨run, hrun, hanswer, -⟩ := (serve_spec rules toHtml asked Run.sound_empty).2.2 _ hlog
  have herase : erase answer = erase (firstAnswer e facet) := by
    rw [show answer = (((Inquiry.facet e facet).perform rules toHtml).run run).1 from hanswer]
    exact erase_perform_eq rules toHtml (.facet e facet) hrun Run.sound_empty
  rw [hfirst] at herase
  match answer with
  | .error error => cases herase
  | .ok answer => exact ⟨answer, hlog, Except.ok.inj herase⟩

/-! ### All that a page shows -/

/-- The anchors on the page of a class. -/
def Sheet.anchors (s : Sheet reg) : List String :=
  s.constants.map (·.anchor) ++ s.properties.map (·.anchor) ++ s.methods.map (·.anchor)

/-- Anchors hold no numbers of chapters. -/
theorem anchored_of_erase_eq [Linked α] {anchor : α → String}
    (hanchor : ∀ a, anchor (erase a) = anchor a) (as bs : List α) (h : erase as = erase bs)
    (has : Anchored (as.map anchor)) : Anchored (bs.map anchor) := by
  have hmap : as.map erase = bs.map erase := h
  have hsame := congrArg (List.map anchor) hmap
  rw [List.map_map, List.map_map, show anchor ∘ erase = anchor from funext hanchor] at hsame
  rwa [← hsame]

section Sheet

variable {before : Contents reg} {c : Chapter reg} (hspelled : ∀ e : reg.Entry, e.1.decl.Spelled)
  (hc : before.get? c.id = some c)

include hspelled hc

theorem Query.ensures_constants :
    Ensures before c.constants fun members => Anchored (members.map (·.anchor)) :=
  ensures_remembered .constants
    (fun c => (Hierarchy.constants reg c.entry).mapM describeConstant) (fun _ => rfl)
    agree_findConstants (P := fun _ members => Anchored (List.map Constant.anchor members))
    (fun _ => anchored_of_erase_eq fun _ => rfl)
    (fun c => yields_constants hspelled c.entry) hc

theorem Query.ensures_properties :
    Ensures before c.properties fun members => Anchored (members.map (·.anchor)) :=
  ensures_remembered .properties
    (fun c => (Hierarchy.properties reg c.entry).mapM describeProperty) (fun _ => rfl)
    agree_findProperties (P := fun _ members => Anchored (List.map Property.anchor members))
    (fun _ => anchored_of_erase_eq fun _ => rfl)
    (fun c => yields_properties hspelled c.entry) hc

theorem Query.ensures_methods :
    Ensures before c.methods fun members => Anchored (members.map (·.anchor)) :=
  ensures_remembered .methods Chapter.findMethods (fun _ => rfl)
    agree_findMethods (P := fun _ members => Anchored (List.map Method.anchor members))
    (fun _ => anchored_of_erase_eq fun _ => rfl) (yields_findMethods hspelled) hc

/-- **All members that the page of a class shows have anchors that escaping leaves as they are.** -/
theorem Query.ensures_sheet :
    Ensures before c.sheet fun s => s.chapter = c ∧ Anchored s.anchors := by
  have hget : ∀ {contents}, before ≤ contents → contents.get? c.id = some c :=
    fun hle => Contents.get?_mono hle hc
  have hmatch : ∀ {contents}, before ≤ contents → Match (contents, contents) c c :=
    fun hle => .chapter (hget hle) (hget hle) rfl
  have hdoc := ensures_of_agree (.gathered (Gather.agree_doc (hmatch (le_refl before))))
  refine hdoc.bind fun _ hle₁ doc _ => ?_
  refine (ensures_of_agree (agree_templates (hmatch hle₁))).bind fun _ hle₂ templates _ => ?_
  have hle₂ := hle₁.trans hle₂
  refine (ensures_of_agree (agree_parent (hmatch hle₂))).bind fun _ hle₃ parent _ => ?_
  have hle₃ := hle₂.trans hle₃
  refine (ensures_of_agree (agree_interfaces (hmatch hle₃))).bind fun _ hle₄ interfaces _ => ?_
  have hle₄ := hle₃.trans hle₄
  refine (ensures_of_agree (agree_traits (hmatch hle₄))).bind fun _ hle₅ traits _ => ?_
  have hle₅ := hle₄.trans hle₅
  refine (ensures_constants hspelled (hget hle₅)).bind fun _ hle₆ constants hconstants => ?_
  have hle₆ := hle₅.trans hle₆
  refine (ensures_properties hspelled (hget hle₆)).bind fun _ hle₇ properties hproperties => ?_
  have hle₇ := hle₆.trans hle₇
  refine (ensures_methods hspelled (hget hle₇)).bind fun _ _ methods hmethods => ?_
  exact ensures_pure ⟨rfl, List.forall_mem_append.2
    ⟨List.forall_mem_append.2 ⟨hconstants, hproperties⟩, hmethods⟩⟩

end Sheet

end Handbook

end PhpHandbook
