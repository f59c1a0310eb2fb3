import PhpHandbook.Declaration.MemberReader
import PhpHandbook.Proofs.Layout

/-!
# Where declarations stand

A declaration that is read points back at the source: names, variables and comments are what their
spans cut out, a type covers the types that it is made of, and a member covers its types and
parameters.  So much is said here of each kind of declaration, and then proved for its reader, which
goes from an offset to another one further on.

## Main definitions

* `TypeHint.Stands`: names at their places, and spans that cover the parts.
* `Param.Stands`, `Method.Stands`, `Members.Stands`: declarations inside a span.

## Main statements

* `lays_readHint`: native types stand where they were read.
* `lays_readMember`: so do the members of a class.
-/

namespace PhpHandbook.Declaration

open Source (Span Token byteLength)

/-! ### Types -/

/-- **A native type at its place**: its names stand where they say, and every span covers those of
the parts. -/
inductive TypeHint.Stands (source : List Char) : TypeHint → Prop
  | named {name : Name} {s : Span} (hname : name.Stands source) (hspan : name.span.Inside s) :
    Stands source (.named name s)
  | nullable {inner : TypeHint} {s : Span} (hinner : Stands source inner)
    (hspan : inner.span.Inside s) : Stands source (.nullable inner s)
  | union {members : List TypeHint} {s : Span} (hmembers : ∀ t ∈ members, Stands source t)
    (hspan : ∀ t ∈ members, t.span.Inside s) : Stands source (.union members s)
  | intersection {members : List TypeHint} {s : Span}
    (hmembers : ∀ t ∈ members, Stands source t)
    (hspan : ∀ t ∈ members, t.span.Inside s) : Stands source (.intersection members s)

/-- A native type at its place inside a span. -/
structure TypeHint.StandsIn (source : List Char) (outer : Span) (t : TypeHint) : Prop where
  stands : t.Stands source
  inside : t.span.Inside outer

theorem TypeHint.StandsIn.widen {source : List Char} {lo lo' hi hi' : Nat} {t : TypeHint}
    (h : t.StandsIn source ⟨lo, hi⟩) (hlo : lo' ≤ lo) (hhi : hi ≤ hi') :
    t.StandsIn source ⟨lo', hi'⟩ :=
  ⟨h.stands, h.inside.widen hlo hhi⟩

@[simp]
theorem TypeHint.span_withSpan (s : Span) (t : TypeHint) : (t.withSpan s).span = s := by
  cases t <;> rfl

/-- A wider span still covers the parts. -/
theorem TypeHint.StandsIn.withSpan {source : List Char} {s : Span} {t : TypeHint}
    (h : t.StandsIn source s) : (t.withSpan s).Stands source := by
  obtain ⟨hstands, hinside⟩ := h
  cases hstands with
  | named hname hspan => exact .named hname (hspan.trans hinside)
  | nullable hinner hspan => exact .nullable hinner (hspan.trans hinside)
  | union hmembers hspan => exact .union hmembers fun t ht => (hspan t ht).trans hinside
  | intersection hmembers hspan =>
    exact .intersection hmembers fun t ht => (hspan t ht).trans hinside

/-- What covers a start and some types covers each of them, and nothing else. -/
theorem coverHints_inside {start outer : Span} {hints : List TypeHint} (hstart : start.Inside outer)
    (h : ∀ t ∈ hints, t.span.Inside outer) :
    (coverHints start hints).Inside outer ∧ start.Inside (coverHints start hints) ∧
      ∀ t ∈ hints, t.span.Inside (coverHints start hints) := by
  induction hints generalizing start with
  | nil => exact ⟨hstart, ⟨Nat.le_refl _, hstart.le, Nat.le_refl _⟩, by simp⟩
  | cons t hints ih =>
    obtain ⟨ht, hhints⟩ := List.forall_mem_cons.1 h
    have hmerge : (start.merge t.span).Inside outer :=
      ⟨Nat.le_min.2 ⟨hstart.start_le, ht.start_le⟩,
        (Nat.min_le_left _ _).trans (hstart.le.trans (Nat.le_max_left _ _)),
        Nat.max_le.2 ⟨hstart.stop_le, ht.stop_le⟩⟩
    obtain ⟨hcover, hmerged, hmembers⟩ := ih hmerge hhints
    have hleft : start.Inside (start.merge t.span) :=
      ⟨Nat.min_le_left _ _, hstart.le, Nat.le_max_left _ _⟩
    have hright : t.span.Inside (start.merge t.span) :=
      ⟨Nat.min_le_right _ _, ht.le, Nat.le_max_right _ _⟩
    exact ⟨hcover, hleft.trans hmerged,
      List.forall_mem_cons.2 ⟨hright.trans hmerged, hmembers⟩⟩

/-- A type that is read, from the next token on. -/
structure HintRead (env : Env) (lo : Nat) (ts : List Item) (hi : Nat) (t : TypeHint) : Prop where
  standsIn : t.StandsIn env.source ⟨lo, hi⟩
  passed : (env.current ts).span.stop ≤ hi

section Hints

variable {env : Env} {lo : Nat} {ts : List Item}

theorem lays_readSingleHint (h : Laid env lo ts) :
    Lays env lo (readSingleHint env ts) (HintRead env (env.current ts).span.start ts)
      (Fault.Lies env) := by
  refine (lays_expect h (h.faultAt_lies _)).map fun hi i _ ⟨ht, _⟩ => ?_
  have hheads := h.heads.taken ht
  refine ⟨⟨.named ht.name.1 ?_, hheads.1, ht.inside.le, ht.inside.stop_le⟩, hheads.2⟩
  rw [ht.name.2]
  exact ⟨Nat.le_refl _, ht.inside.le, Nat.le_refl _⟩

theorem lays_readMoreJoined (ts : List Item) {lo : Nat} (h : Laid env lo ts) :
    Lays env lo (readMoreJoined env ts)
      (fun hi hints => ∀ t ∈ hints, t.StandsIn env.source ⟨lo, hi⟩) (Fault.Lies env) := by
  unfold readMoreJoined
  split
  · refine lays_onNext h (fun t us _ _ _ ht hus => ?_) (lays_done h (by simp))
    refine (lays_readSingleHint hus).andThen fun hint vs _ mid _ hmid hvs hhint => ?_
    refine (lays_readMoreJoined vs hvs).map fun hi hints hhi hhints => ?_
    have hlo : lo ≤ (env.current us).span.start := ht.stop_le.trans hus.current.start_le
    refine List.forall_mem_cons.2 ⟨hhint.standsIn.widen hlo hhi, fun u hu => ?_⟩
    exact (hhints u hu).widen (ht.stop_le.trans hmid) (Nat.le_refl _)
  · exact lays_done h (by simp)
termination_by ts.length
decreasing_by omega

/-- Several types, and the span that covers them and their start. -/
theorem HintRead.cover {lo' mid hi : Nat} {start : Span} {first : TypeHint} {more : List TypeHint}
    (hfirst : HintRead env start.start ts mid first) (hstart : Heads env lo' start ts)
    (hhi : mid ≤ hi) (hmore : ∀ t ∈ more, t.StandsIn env.source ⟨mid, hi⟩) :
    (coverHints start (first :: more)).Inside ⟨start.start, hi⟩ ∧
      (∀ t ∈ first :: more, t.Stands env.source) ∧
      ∀ t ∈ first :: more, t.span.Inside (coverHints start (first :: more)) := by
  have hpassed : start.stop ≤ mid := hstart.stop_le.trans hfirst.passed
  have hall : ∀ t ∈ first :: more, t.StandsIn env.source ⟨start.start, hi⟩ :=
    List.forall_mem_cons.2 ⟨hfirst.standsIn.widen (Nat.le_refl _) hhi,
      fun t ht => (hmore t ht).widen (hstart.le.trans hpassed) (Nat.le_refl _)⟩
  have hstartIn : start.Inside ⟨start.start, hi⟩ :=
    ⟨Nat.le_refl _, hstart.le, hpassed.trans hhi⟩
  obtain ⟨hcover, -, hmembers⟩ := coverHints_inside hstartIn fun t ht => (hall t ht).inside
  exact ⟨hcover, fun t ht => (hall t ht).stands, hmembers⟩

/-- A name or an intersection, with a span in front of it that it is to cover. -/
theorem lays_readIntersection {lo' : Nat} {start : Span} (h : Laid env lo ts)
    (hstart : Heads env lo' start ts) :
    Lays env lo (readIntersection env start ts) (HintRead env start.start ts) (Fault.Lies env) := by
  refine (lays_readSingleHint h).andThen fun first us _ mid _ hmid hus hfirst => ?_
  refine (lays_readMoreJoined us hus).map fun hi more hhi hmore => ?_
  have hfirst : HintRead env start.start ts mid first :=
    ⟨hfirst.standsIn.widen hstart.start_le (Nat.le_refl _), hfirst.passed⟩
  have hpassed := hfirst.passed.trans hhi
  split
  · exact ⟨hfirst.standsIn.widen (Nat.le_refl _) hhi, hpassed⟩
  · obtain ⟨hcover, hstands, hmembers⟩ := hfirst.cover hstart hhi hmore
    exact ⟨⟨.intersection hstands hmembers, hcover⟩, hpassed⟩

theorem lays_readGroup (h : Laid env lo ts) :
    Lays env lo (readGroup env ts) (HintRead env (env.current ts).span.start ts)
      (Fault.Lies env) := by
  refine lays_onNext h (fun t us _ hts _ ht hus => ?_) (lays_readIntersection h h.heads)
  have hopening : t.token.span.Inside ⟨t.token.span.start, t.token.span.stop⟩ :=
    ⟨Nat.le_refl _, Nat.le_of_lt ht.token.lt, Nat.le_refl _⟩
  have hheads : Heads env t.token.span.start t.token.span us :=
    ⟨Nat.le_refl _, hopening.le, hopening.le.trans hus.current.start_le,
      hus.current.start_le.trans hus.current.le⟩
  refine (lays_readIntersection hus hheads).andThen fun inner vs _ mid _ hmid hvs hinner => ?_
  refine (lays_expectMark hvs _).map fun hi _ hhi ⟨closing, hclosing, heq⟩ => ?_
  subst heq hts
  have hspan : t.token.span.merge closing.token.span = ⟨t.token.span.start, hi⟩ := by
    rw [hopening.merge_eq (hclosing.inside.widen hmid (Nat.le_refl _)), hclosing.stop_eq]
  have hinnerIn := hinner.standsIn.widen (Nat.le_refl _) hhi
  rw [hspan]
  refine ⟨⟨hinnerIn.withSpan, ?_⟩, hmid.trans hhi⟩
  rw [TypeHint.span_withSpan]
  exact ⟨Nat.le_refl _, hopening.le.trans (hmid.trans hhi), Nat.le_refl _⟩

theorem lays_readMoreUnited (ts : List Item) {lo : Nat} (h : Laid env lo ts) :
    Lays env lo (readMoreUnited env ts)
      (fun hi hints => ∀ t ∈ hints, t.StandsIn env.source ⟨lo, hi⟩) (Fault.Lies env) := by
  unfold readMoreUnited
  refine lays_onNext h (fun t us _ _ _ ht hus => ?_) (lays_done h (by simp))
  refine (lays_readGroup hus).andThen fun hint vs _ mid _ hmid hvs hhint => ?_
  refine (lays_readMoreUnited vs hvs).map fun hi hints hhi hhints => ?_
  have hlo : lo ≤ (env.current us).span.start := ht.stop_le.trans hus.current.start_le
  refine List.forall_mem_cons.2 ⟨hhint.standsIn.widen hlo hhi, fun u hu => ?_⟩
  exact (hhints u hu).widen (ht.stop_le.trans hmid) (Nat.le_refl _)
termination_by ts.length
decreasing_by omega

/-- **A native type stands where it was read**, from the next token on. -/
theorem lays_readHint (h : Laid env lo ts) :
    Lays env lo (readHint env ts)
      (fun hi t => t.StandsIn env.source ⟨(env.current ts).span.start, hi⟩)
      (Fault.Lies env) := by
  refine lays_onNext h (fun t us _ hts _ ht hus => ?_) ?_
  · refine (lays_readSingleHint hus).map fun hi inner hhi hinner => ?_
    subst hts
    have hopening : t.token.span.Inside ⟨t.token.span.start, t.token.span.stop⟩ :=
      ⟨Nat.le_refl _, Nat.le_of_lt ht.token.lt, Nat.le_refl _⟩
    have hinnerIn := hinner.standsIn.widen hus.current.start_le (Nat.le_refl hi)
    refine ⟨.nullable hinnerIn.stands ?_, hopening.merge hinnerIn.inside⟩
    show inner.span.Inside (t.token.span.merge inner.span)
    rw [hopening.merge_eq hinnerIn.inside]
    exact ⟨hopening.le.trans hinnerIn.inside.start_le, hinnerIn.inside.le, Nat.le_refl _⟩
  · refine (lays_readGroup h).andThen fun first us _ mid _ _ hus hfirst => ?_
    refine (lays_readMoreUnited us hus).map fun hi more hhi hmore => ?_
    split
    · exact hfirst.standsIn.widen (Nat.le_refl _) hhi
    · obtain ⟨hcover, hstands, hmembers⟩ := hfirst.cover h.heads hhi hmore
      exact ⟨.union hstands hmembers, hcover⟩

/-- A type that may be missing. -/
theorem lays_readHintIf (h : Laid env lo ts) (wanted : Bool) :
    Lays env lo (readHintIf env wanted ts) (fun hi o =>
      ∀ t ∈ o, t.StandsIn env.source ⟨(env.current ts).span.start, hi⟩)
        (Fault.Lies env) := by
  rw [readHintIf]
  split
  · exact (lays_readHint h).map fun _ t _ ht u hu => (Option.some.inj hu) ▸ ht
  · exact lays_done h (by simp)

theorem lays_readReturnHint (h : Laid env lo ts) :
    Lays env lo (readReturnHint env ts)
      (fun hi o => ∀ t ∈ o, t.StandsIn env.source ⟨lo, hi⟩) (Fault.Lies env) := by
  refine lays_onNext h (fun t us _ _ _ ht hus => ?_) (lays_done h (by simp))
  refine (lays_readHint hus).map fun hi hint _ hhint u hu => (Option.some.inj hu) ▸ ?_
  exact hhint.widen (ht.stop_le.trans hus.current.start_le) (Nat.le_refl _)

end Hints

/-! ### What members are made of -/

/-- A comment at its place. -/
def Comment.Stands (source : List Char) (c : Comment) : Prop :=
  c.span.Marks source c.text

/-- A parameter at its place inside a span. -/
structure Param.Stands (source : List Char) (outer : Span) (p : Param) : Prop where
  name : p.name.StandsBehindDollar source
  type : ∀ t ∈ p.type, t.StandsIn source p.span
  doc : ∀ c ∈ p.doc, c.Stands source
  inside : p.span.Inside outer

/-- A constant at its place inside a span. -/
structure Constant.Stands (source : List Char) (outer : Span) (c : Constant) : Prop where
  name : c.name.Stands source
  type : ∀ t ∈ c.type, t.StandsIn source c.span
  doc : ∀ d ∈ c.doc, d.Stands source
  inside : c.span.Inside outer

/-- A case of an enum at its place inside a span. -/
structure EnumCase.Stands (source : List Char) (outer : Span) (c : EnumCase) : Prop where
  name : c.name.Stands source
  doc : ∀ d ∈ c.doc, d.Stands source
  inside : c.span.Inside outer

/-- A property at its place inside a span. -/
structure Property.Stands (source : List Char) (outer : Span) (p : Property) : Prop where
  name : p.name.StandsBehindDollar source
  type : ∀ t ∈ p.type, t.StandsIn source p.span
  doc : ∀ c ∈ p.doc, c.Stands source
  inside : p.span.Inside outer

/-- **A method at its place** inside a span, with its parameters inside its own. -/
structure Method.Stands (source : List Char) (outer : Span) (m : Method) : Prop where
  name : m.name.Stands source
  params : ∀ p ∈ m.params, p.Stands source m.span
  returnType : ∀ t ∈ m.returnType, t.StandsIn source m.span
  doc : ∀ c ∈ m.doc, c.Stands source
  inside : m.span.Inside outer

/-- The names in a rule for methods of traits. -/
inductive Adaptation.Stands (source : List Char) : Adaptation → Prop
  | rename {traitName : Option Name} (h : ∀ n ∈ traitName, n.Stands source) (method : String)
    (visibility : Option Visibility) (newName : Option String) :
    Stands source (.rename traitName method visibility newName)
  | precedence {traitName : Name} {insteadOf : List Name} (h : traitName.Stands source)
    (method : String) (hinsteadOf : ∀ n ∈ insteadOf, n.Stands source) :
    Stands source (.precedence traitName method insteadOf)

/-- A use of traits at its place inside a span. -/
structure TraitUse.Stands (source : List Char) (outer : Span) (use : TraitUse) : Prop where
  traits : ∀ n ∈ use.traits, n.Stands source
  adaptations : ∀ a ∈ use.adaptations, a.Stands source
  comments : ∀ c ∈ use.comments, c.Stands source
  inside : use.span.Inside outer

/-- **Members at their places** inside a span. -/
structure Members.Stands (source : List Char) (outer : Span) (ms : Members) : Prop where
  traitUses : ∀ use ∈ ms.traitUses, use.Stands source outer
  constants : ∀ c ∈ ms.constants, c.Stands source outer
  cases : ∀ c ∈ ms.cases, c.Stands source outer
  properties : ∀ p ∈ ms.properties, p.Stands source outer
  methods : ∀ m ∈ ms.methods, m.Stands source outer

theorem Members.Stands.widen {source : List Char} {s outer : Span} {ms : Members}
    (h : ms.Stands source s) (hs : ∀ x : Span, x.Inside s → x.Inside outer) :
    ms.Stands source outer where
  traitUses use huse := { h.traitUses use huse with inside := hs _ (h.traitUses use huse).inside }
  constants c hc := { h.constants c hc with inside := hs _ (h.constants c hc).inside }
  cases c hc := { h.cases c hc with inside := hs _ (h.cases c hc).inside }
  properties p hp := { h.properties p hp with inside := hs _ (h.properties p hp).inside }
  methods m hm := { h.methods m hm with inside := hs _ (h.methods m hm).inside }

/-- What one statement in the body of a class adds. -/
def Member.Stands (source : List Char) (outer : Span) (m : Member) : Prop :=
  (Members.add {} m).Stands source outer

theorem Members.stands_empty (source : List Char) (outer : Span) :
    ({} : Members).Stands source outer :=
  ⟨by simp, by simp, by simp, by simp, by simp⟩

/-- **Statements add up**: members at their places, and those of one more statement. -/
theorem Members.Stands.add {source : List Char} {outer : Span} {ms : Members}
    (h : ms.Stands source outer) {m : Member} (hm : m.Stands source outer) :
    (ms.add m).Stands source outer := by
  cases m with
  | nothing => exact h
  | traitUse use =>
    exact { h with traitUses := List.forall_mem_append.2 ⟨h.traitUses, hm.traitUses⟩ }
  | case c => exact { h with cases := List.forall_mem_append.2 ⟨h.cases, hm.cases⟩ }
  | constants cs =>
    exact { h with constants := List.forall_mem_append.2 ⟨h.constants, hm.constants⟩ }
  | properties ps =>
    exact { h with properties := List.forall_mem_append.2 ⟨h.properties, hm.properties⟩ }
  | method m => exact { h with methods := List.forall_mem_append.2 ⟨h.methods, hm.methods⟩ }

/-! ### Reading members -/

section Members

variable {env : Env} {lo lo' : Nat} {ts : List Item} {doc : Option Comment} {start : Span}
  {modifiers : Modifiers}

/-- The documentation comment in front of the next token stands there. -/
theorem Laid.docComment?_stands (h : Laid env lo ts) :
    ∀ c ∈ docComment? ts, CommentStands env.source lo (env.current ts).span.start c := by
  intro c hc
  cases ts with
  | nil => cases hc
  | cons t us => exact h.1.comments c (List.mem_reverse.1 (List.mem_of_find?_eq_some hc))

theorem Laid.firstDoc_stands (h : Laid env lo ts) (hdoc : ∀ c ∈ doc, c.Stands env.source) :
    ∀ c ∈ firstDoc doc ts, c.Stands env.source := by
  intro c hc
  cases doc with
  | none => exact (h.docComment?_stands c hc).marks
  | some d => exact hdoc c hc

/-- Looking behind attributes too. -/
theorem Laid.firstDocs_stand (h : Laid env lo ts) {us : List Item} {mid : Nat}
    (hus : Laid env mid us) :
    ∀ c ∈ firstDoc (docComment? ts) us, c.Stands env.source :=
  hus.firstDoc_stands fun c hc => (h.docComment?_stands c hc).marks

theorem lays_readSet (h : Laid env lo ts) :
    Lays env lo (readSet env ts) (fun _ _ => True) (Fault.Lies env) := by
  rw [readSet]
  split
  · refine (lays_skip h).andThen fun _ us _ _ _ _ hus _ => ?_
    refine (lays_skip hus).andThen fun _ vs _ _ _ _ hvs _ => ?_
    exact (lays_expectMark hvs _).map fun _ _ _ _ => trivial
  · exact lays_done h trivial

theorem lays_readModifiers (m : Modifiers) (ts : List Item) {lo : Nat} (h : Laid env lo ts) :
    Lays env lo (readModifiers env m ts) (fun _ _ => True) (Fault.Lies env) := by
  unfold readModifiers
  refine lays_onNext h (fun t us _ _ _ _ hus => ?_) (lays_done h trivial)
  split
  · exact (lays_readSet hus).andThen fun _ vs _ _ _ _ hvs _ => lays_readModifiers _ vs hvs
  · exact lays_readModifiers _ us hus
termination_by ts.length
decreasing_by all_goals omega

theorem lays_readAdaptedTrait (h : Laid env lo ts) :
    Lays env lo (readAdaptedTrait env ts) (fun _ o => ∀ n ∈ o, n.Stands env.source)
      (Fault.Lies env) := by
  rw [readAdaptedTrait]
  split
  · refine (lays_readName h).andThen fun name us _ _ _ _ hus hname => ?_
    exact (lays_skip hus).map fun _ _ _ _ n hn => (Option.some.inj hn) ▸ hname.1
  · exact lays_done h (by simp)

theorem lays_readAdaptation (h : Laid env lo ts) :
    Lays env lo (readAdaptation env ts) (fun _ a => a.Stands env.source) (Fault.Lies env) := by
  refine (lays_readAdaptedTrait h).andThen fun traitName us _ _ _ _ hus htrait => ?_
  refine (lays_readMemberName hus).andThen fun method vs _ _ _ _ hvs hmethod => ?_
  refine lays_onNext hvs (fun t ws _ _ _ _ hws => ?_) ?_
  · cases traitName with
    | none => exact lays_fail (hvs.lies (hmethod.2.widen (Nat.zero_le _) (Nat.le_refl _)))
    | some traitName =>
      exact (lays_readNames hws).map fun _ _ _ hnames =>
        .precedence (htrait traitName rfl) _ fun n hn => (hnames n hn).1
  · refine (lays_expectKeyword hvs _).andThen fun _ ws _ _ _ _ hws _ => ?_
    refine (lays_take? hws).andThen fun word xs _ _ _ _ hxs _ => ?_
    dsimp only
    split
    · exact lays_done hxs (.rename htrait _ _ _)
    · exact (lays_readMemberName hxs).map fun _ _ _ _ => .rename htrait _ _ _

theorem lays_readAdaptations (ts : List Item) {lo : Nat} (h : Laid env lo ts) :
    Lays env lo (readAdaptations env ts) (fun _ as => ∀ a ∈ as, a.Stands env.source)
      (Fault.Lies env) := by
  unfold readAdaptations
  split
  · exact lays_done h (by simp)
  · refine (lays_readAdaptation h).andThen fun a us _ _ _ _ hus ha => ?_
    refine lays_onNext hus (fun t vs _ _ _ _ hvs => ?_) (lays_fail (hus.unexpected_lies _))
    exact (lays_readAdaptations vs hvs).map fun _ _ _ has => List.forall_mem_cons.2 ⟨ha, has⟩
termination_by ts.length
decreasing_by omega

theorem lays_readUseEnd (h : Laid env lo ts) :
    Lays env lo (readUseEnd env ts)
      (fun hi r => (∀ a ∈ r.1, a.Stands env.source) ∧ r.2.Inside ⟨lo, hi⟩)
      (Fault.Lies env) := by
  refine lays_onNext h (fun t us _ _ _ ht hus => ?_) ?_
  · refine (lays_readAdaptations us hus).andThen fun as vs _ mid _ hmid hvs has => ?_
    refine (lays_expectMark hvs _).map fun hi _ _ ⟨closing, hclosing, heq⟩ => ⟨has, ?_⟩
    subst heq
    exact hclosing.inside.widen (ht.stop_le.trans hmid) (Nat.le_refl _)
  · refine (lays_expectMark h _).map fun hi _ _ ⟨closing, hclosing, heq⟩ => ⟨by simp, ?_⟩
    subst heq
    exact hclosing.inside

/-- A use of traits starts at its word, and has the comments in front of it. -/
theorem lays_readTraitUse (h : Laid env lo ts) :
    Lays env lo (readTraitUse env ts) (fun hi use => use.Stands env.source ⟨lo, hi⟩ ∧
      use.comments = (ts.head?.map (·.comments)).getD [] ∧
      use.span.start = (env.current ts).span.start) (Fault.Lies env) := by
  have hcomments : ∀ c ∈ (ts.head?.map (·.comments)).getD [], Comment.Stands env.source c := by
    cases ts with
    | nil => simp
    | cons t us => exact fun c hc => (h.1.comments c hc).marks
  rw [readTraitUse]
  refine (lays_expectKeyword h _).andThen fun word us _ _ _ _ hus hword => ?_
  obtain ⟨i, htaken, rfl⟩ := hword
  refine (lays_readNames hus).andThen fun traits vs _ mid _ hmid hvs htraits => ?_
  refine (lays_readUseEnd hvs).map fun hi r _ hr => ?_
  have hword := htaken.inside.widen (Nat.le_refl lo) hmid
  refine ⟨⟨fun n hn => (htraits n hn).1, hr.1, hcomments, hword.merge hr.2⟩, rfl, ?_⟩
  rw [htaken.current_eq env]
  exact hword.merge_start hr.2

/-- A keyword at the start of a statement or behind it. -/
theorem lays_expectKeyword_behind (h : Laid env lo ts) (hstart : Heads env lo' start ts)
    (word : Source.Keyword) :
    Lays env lo (expectKeyword env word ts) (fun mid _ => start.Inside ⟨lo', mid⟩)
      (Fault.Lies env) :=
  (lays_expectKeyword h word).imp fun _ _ _ ⟨_, htaken, _⟩ =>
    ⟨hstart.lo_le, hstart.le, (hstart.taken htaken).2⟩

/-- A declaration that keeps the comment that was found for its statement, and starts where the
statement does. -/
structure Announced (doc : Option Comment) (start : Span) (doc' : Option Comment) (span : Span) :
    Prop where
  doc_eq : doc' = doc
  start_eq : span.start = start.start

theorem lays_readCase (h : Laid env lo ts) (hstart : Heads env lo' start ts)
    (hdoc : ∀ c ∈ doc, c.Stands env.source) :
    Lays env lo (readCase env doc start ts) (fun hi c => c.Stands env.source ⟨lo', hi⟩ ∧
      Announced doc start c.doc c.span) (Fault.Lies env) := by
  refine (lays_expectKeyword_behind h hstart _).andThen fun _ us _ _ _ _ hus hbefore => ?_
  refine (lays_readMemberName hus).andThen fun name vs _ _ _ hmid hvs hname => ?_
  refine (lays_readDefault hvs).andThen fun value ws _ _ _ hmid' hws _ => ?_
  refine (lays_expectMark hws _).map fun hi _ _ ⟨closing, hclosing, heq⟩ => ?_
  subst heq
  have hbefore := hbefore.widen (Nat.le_refl _) (hmid.trans hmid')
  exact ⟨⟨hname.1, hdoc, hbefore.merge hclosing.inside⟩, rfl,
    hbefore.merge_start hclosing.inside⟩

/-- The constants of one statement; `make` puts in what they share. -/
theorem lays_readConstantList {make : Ident → String → Constant}
    {P : Nat → Constant → Prop} {lo : Nat} (ts : List Item) (h : Laid env lo ts)
    (hmono : ∀ hi hi' c, hi ≤ hi' → P hi c → P hi' c)
    (hmake : ∀ hi name value, name.Stands env.source → name.span.Inside ⟨lo, hi⟩ →
      P hi (make name value)) :
    Lays env lo (readConstantList env make ts) (fun hi cs => ∀ c ∈ cs, P hi c)
      (Fault.Lies env) := by
  unfold readConstantList
  refine (lays_readMemberName h).andThen fun name us _ mid _ hmid hus hname => ?_
  have hmade : ∀ hi value, mid ≤ hi → P hi (make name value) := fun hi value hhi =>
    hmono mid hi _ hhi (hmake mid name value hname.1 hname.2)
  refine lays_onNext hus (fun t vs _ _ _ ht hvs => ?_) (lays_fail (hus.faultAt_lies _))
  refine (lays_readExpression hvs).andThen fun value ws _ mid' _ hmid' hws _ => ?_
  have hle : mid ≤ mid' := ht.stop_le.trans hmid'
  refine lays_onNext hws (fun t' xs _ _ _ ht' hxs => ?_)
    (lays_done hws (by simpa using hmade mid' value hle))
  refine (lays_readConstantList xs hxs hmono ?_).map fun hi cs hhi hcs => ?_
  · intro hi name value hname hinside
    refine hmake hi name value hname (hinside.widen ?_ (Nat.le_refl _))
    exact hmid.trans (hle.trans ht'.stop_le)
  · exact List.forall_mem_cons.2 ⟨hmade hi value (hle.trans (ht'.stop_le.trans hhi)), hcs⟩
termination_by ts.length
decreasing_by omega

theorem lays_readConstants (h : Laid env lo ts) (hstart : Heads env lo' start ts)
    (hdoc : ∀ c ∈ doc, c.Stands env.source) :
    Lays env lo (readConstants env modifiers doc start ts) (fun hi cs => ∀ c ∈ cs,
      c.Stands env.source ⟨lo', hi⟩ ∧ Announced doc start c.doc c.span) (Fault.Lies env) := by
  have hwider : ∀ (hi hi' : Nat) (c : Constant), hi ≤ hi' →
      c.Stands env.source ⟨lo', hi⟩ ∧ Announced doc start c.doc c.span →
      c.Stands env.source ⟨lo', hi'⟩ ∧ Announced doc start c.doc c.span :=
        fun hi hi' c hle hc =>
    ⟨{ hc.1 with inside := hc.1.inside.widen (Nat.le_refl _) hle }, hc.2⟩
  refine (lays_expectKeyword_behind h hstart _).andThen fun _ us _ mid _ _ hus hbefore => ?_
  refine (lays_readHintIf hus _).andThen fun type vs _ mid' _ hmid hvs htype => ?_
  have hbefore' := hbefore.widen (Nat.le_refl _) hmid
  have htypeIn : ∀ t ∈ type, t.StandsIn env.source ⟨mid, mid'⟩ := fun t ht =>
    (htype t ht).widen hus.current.start_le (Nat.le_refl _)
  refine (lays_readConstantList vs hvs hwider ?_).andThen fun cs ws _ _ _ _ hws hcs => ?_
  · intro hi name value hname hinside
    exact ⟨⟨hname,
      fun t ht => ⟨(htypeIn t ht).stands, (htypeIn t ht).inside.between hbefore hinside⟩, hdoc,
        hbefore'.merge hinside⟩, rfl, hbefore'.merge_start hinside⟩
  · exact (lays_expectMark hws _).map fun hi _ hhi _ c hc => hwider _ _ c hhi (hcs c hc)

theorem lays_readHooks (h : Laid env lo ts) :
    Lays env lo (readHooks env ts) (fun _ _ => True) (Fault.Lies env) := by
  rw [readHooks]
  split
  · exact (lays_skipBlock h).map fun _ _ _ _ => trivial
  · exact lays_done h trivial

/-- The properties of one statement; `make` puts in what they share. -/
theorem lays_readPropertyList {make : Ident → Option String → Bool → Property}
    {P : Nat → Property → Prop} {lo : Nat} (ts : List Item) (h : Laid env lo ts)
    (hstart : Heads env lo' start ts) (hmono : ∀ hi hi' p, hi ≤ hi' → P hi p → P hi' p)
    (hmake : ∀ hi name fallback hasHooks, name.StandsBehindDollar env.source →
      name.span.Inside ⟨lo, hi⟩ → start.start ≤ name.span.start →
      start.stop ≤ name.span.stop →
      P hi (make name fallback hasHooks)) :
    Lays env lo (readPropertyList env make ts) (fun hi ps => ∀ p ∈ ps, P hi p)
      (Fault.Lies env) := by
  unfold readPropertyList
  refine (lays_readVariable h hstart).andThen fun name us _ mid hus' hmid hus hname => ?_
  obtain ⟨hname, hinside, hbefore, hstop⟩ := hname
  have hmade : ∀ hi fallback hasHooks, mid ≤ hi → P hi (make name fallback hasHooks) :=
    fun hi fallback hasHooks hhi =>
      hmono mid hi _ hhi (hmake mid name fallback hasHooks hname hinside hbefore hstop)
  refine (lays_readDefault hus).andThen fun fallback vs _ mid₁ hvs' hmid₁ hvs _ => ?_
  refine (lays_readHooks hvs).andThen fun hasHooks ws _ mid₂ hws' hmid₂ hws _ => ?_
  have hle : mid ≤ mid₂ := hmid₁.trans hmid₂
  dsimp only
  split
  · exact lays_done hws (by simpa using hmade mid₂ fallback hasHooks hle)
  · refine lays_onNext hws (fun t xs _ hts _ ht hxs => ?_) ((lays_expectMark hws _).map
      fun hi _ hhi _ => by simpa using hmade hi fallback hasHooks (hle.trans hhi))
    have hsuffix : xs <:+ ts :=
      (hts ▸ List.suffix_cons t xs).trans (hws'.trans (hvs'.trans hus'))
    refine (lays_readPropertyList xs hxs (hstart.suffix h hsuffix) hmono ?_).map
      fun hi ps hhi hps => ?_
    · intro hi name fallback hasHooks hname hinside
      refine hmake hi name fallback hasHooks hname (hinside.widen ?_ (Nat.le_refl _))
      exact hmid.trans (hle.trans ht.stop_le)
    · exact List.forall_mem_cons.2
        ⟨hmade hi fallback hasHooks (hle.trans (ht.stop_le.trans hhi)), hps⟩
termination_by ts.length
decreasing_by omega

theorem lays_readProperties (h : Laid env lo ts) (hstart : Heads env lo' start ts)
    (hdoc : ∀ c ∈ doc, c.Stands env.source) :
    Lays env lo (readProperties env modifiers doc start ts) (fun hi ps => ∀ p ∈ ps,
      p.Stands env.source ⟨lo', hi⟩ ∧ Announced doc start p.doc p.span) (Fault.Lies env) := by
  refine (lays_readHintIf h _).andThen fun type us _ mid hus' _ hus htype => ?_
  refine lays_readPropertyList us hus (hstart.suffix h hus') (fun hi hi' p hle hp => ?_) ?_
  · exact ⟨{ hp.1 with inside := hp.1.inside.widen (Nat.le_refl _) hle }, hp.2⟩
  intro hi name fallback hasHooks hname hinside hbefore hstop
  have hspan : start.merge name.span = ⟨start.start, name.span.stop⟩ :=
    Span.merge_eq hbefore hstop
  have hfirst : (start.merge name.span).start = start.start := by rw [hspan]
  refine ⟨⟨hname, fun t ht => ⟨(htype t ht).stands, ?_⟩, hdoc, ?_⟩, rfl, hfirst⟩
  · show t.span.Inside (start.merge name.span)
    rw [hspan]
    exact (htype t ht).inside.widen hstart.start_le (hinside.start_le.trans hinside.le)
  · show (start.merge name.span).Inside ⟨lo', hi⟩
    rw [hspan]
    exact ⟨hstart.lo_le, hbefore.trans hinside.le, hinside.stop_le⟩

/-! ### Reading methods -/

/-- A parameter lies behind the parenthesis or the comma in front of it. -/
theorem lays_readParam (h : Laid env lo ts) :
    Lays env lo (readParam env ts)
      (fun hi p => p.Stands env.source ⟨lo, hi⟩ ∧
        Announced (firstDoc (docComment? ts) (skipAttributes ts).rest) (env.current ts).span
          p.doc p.span)
      (Fault.Lies env) := by
  rw [readParam]
  refine (lays_skipAttributes ts h).andThen_outcome fun _ _ _ _ _ hus _ => ?_
  have hdoc := h.firstDocs_stand hus
  have hstart := h.heads.suffix h (skipAttributes ts).suffix
  refine (lays_readModifiers _ _ hus).andThen fun modifiers vs _ _ hvs' _ hvs _ => ?_
  have hstart := hstart.suffix hus hvs'
  refine (lays_readHintIf hvs _).andThen fun type ws _ mid hws' _ hws htype => ?_
  have htype : ∀ t ∈ type, t.StandsIn env.source ⟨(env.current ts).span.start, mid⟩ :=
    fun t ht => (htype t ht).widen hstart.start_le (Nat.le_refl _)
  have hstart := hstart.suffix hvs hws'
  refine (lays_skipMark hws _).andThen fun byRef xs _ _ hxs' hle hxs _ => ?_
  have hstart := hstart.suffix hws hxs'
  refine (lays_skipMark hxs _).andThen fun variadic ys _ _ hys' hle' hys _ => ?_
  have hstart := hstart.suffix hxs hys'
  refine (lays_readVariable hys hstart).andThen fun name zs _ _ _ _ hzs hname => ?_
  obtain ⟨hname, hinside, hbefore, hstop⟩ := hname
  refine (lays_readDefault hzs).andThen fun fallback as _ _ _ hmid has _ => ?_
  refine (lays_readHooks has).map fun hi _ hhi _ => ?_
  have hspan := Span.merge_eq hbefore hstop
  have hfirst : ((env.current ts).span.merge name.span).start = (env.current ts).span.start := by
    rw [hspan]
  refine ⟨⟨hname, fun t ht => ⟨(htype t ht).stands, ?_⟩, hdoc, ?_⟩, rfl, hfirst⟩
  · show t.span.Inside ((env.current ts).span.merge name.span)
    rw [hspan]
    exact (htype t ht).inside.widen (Nat.le_refl _)
      ((hle.trans hle').trans (hinside.start_le.trans hinside.le))
  · show ((env.current ts).span.merge name.span).Inside ⟨lo, hi⟩
    rw [hspan]
    exact ⟨h.current.start_le, hbefore.trans hinside.le, hinside.stop_le.trans (hmid.trans hhi)⟩

theorem lays_readParamList (ts : List Item) {lo : Nat} (h : Laid env lo ts) :
    Lays env lo (readParamList env ts) (fun hi ps => ∀ p ∈ ps, p.Stands env.source ⟨lo, hi⟩)
      (Fault.Lies env) := by
  unfold readParamList
  split
  · exact lays_done h (by simp)
  · refine (lays_readParam h).andThen fun p us _ mid _ hmid hus hp => ?_
    refine lays_onNext hus (fun t vs _ _ _ ht hvs => ?_) (lays_done hus (by simpa using hp.1))
    refine (lays_readParamList vs hvs).map fun hi ps hhi hps => ?_
    have hle : mid ≤ hi := ht.stop_le.trans hhi
    refine List.forall_mem_cons.2
      ⟨{ hp.1 with inside := hp.1.inside.widen (Nat.le_refl _) hle }, ?_⟩
    exact fun q hq => { hps q hq with
      inside := (hps q hq).inside.widen (hmid.trans ht.stop_le) (Nat.le_refl _) }
termination_by ts.length
decreasing_by omega

theorem lays_readParams (h : Laid env lo ts) :
    Lays env lo (readParams env ts) (fun hi ps => ∀ p ∈ ps, p.Stands env.source ⟨lo, hi⟩)
      (Fault.Lies env) := by
  refine (lays_expectMark h _).andThen fun _ us _ _ _ hmid hus _ => ?_
  refine (lays_readParamList us hus).andThen fun ps vs _ _ _ _ hvs hps => ?_
  refine (lays_expectMark hvs _).map fun hi _ hhi _ p hp => ?_
  exact { hps p hp with inside := (hps p hp).inside.widen hmid hhi }

theorem lays_readMethodEnd (h : Laid env lo ts) :
    Lays env lo (readMethodEnd env ts) (fun hi r => r.2.Inside ⟨lo, hi⟩) (Fault.Lies env) := by
  rw [readMethodEnd]
  split
  · exact (lays_skipBlock h).map fun _ _ _ hspan => hspan
  · have hhint : ∀ f : Fault, f.Lies env →
        (f.withHint "methods need a body or a terminating ';'").Lies env := fun _ hf => hf
    refine ((lays_expectMark h _).mapError hhint).map fun _ _ _ hclosing => ?_
    obtain ⟨i, htaken, rfl⟩ := hclosing
    exact htaken.inside

/-- **A method** covers its parameters and its types. -/
theorem lays_readMethod (h : Laid env lo ts) (hstart : Heads env lo' start ts)
    (hdoc : ∀ c ∈ doc, c.Stands env.source) :
    Lays env lo (readMethod env modifiers doc start ts)
      (fun hi m => m.Stands env.source ⟨lo', hi⟩) (Fault.Lies env) := by
  rw [readMethod]
  refine (lays_expectKeyword_behind h hstart _).andThen fun _ us _ mid _ _ hus hbefore => ?_
  refine (lays_skipMark hus _).andThen fun _ vs _ mid₁ _ hmid₁ hvs _ => ?_
  refine (lays_readMemberName hvs).andThen fun name ws _ mid₂ _ hmid₂ hws hname => ?_
  refine (lays_readParams hws).andThen fun params xs _ mid₃ _ hmid₃ hxs hparams => ?_
  refine (lays_readReturnHint hxs).andThen fun type ys _ mid₄ _ hmid₄ hys htype => ?_
  refine (lays_readMethodEnd hys).map fun hi r _ hend => ?_
  have hle : mid ≤ mid₂ := hmid₁.trans hmid₂
  have hbetween : ∀ {x : Span}, x.Inside ⟨mid₂, mid₄⟩ →
      x.Inside (start.merge r.2) := fun hx =>
    (hx.widen hle (Nat.le_refl _)).between hbefore hend
  refine ⟨hname.1, fun p hp => ?_, fun t ht => ?_, hdoc, ?_⟩
  · exact { hparams p hp with
      inside := hbetween ((hparams p hp).inside.widen (Nat.le_refl _) hmid₄) }
  · exact ⟨(htype t ht).stands, hbetween ((htype t ht).inside.widen hmid₃ (Nat.le_refl _))⟩
  · exact (hbefore.widen (Nat.le_refl _) (hle.trans (hmid₃.trans hmid₄))).merge hend

/-! ### Reading one statement -/

theorem lays_readModified (h : Laid env lo ts) (hstart : Heads env lo' start ts)
    (hdoc : ∀ c ∈ doc, c.Stands env.source) :
    Lays env lo (readModified env doc start ts)
      (fun hi m => m.Stands env.source ⟨lo', hi⟩) (Fault.Lies env) := by
  refine (lays_readModifiers _ ts h).andThen fun modifiers us _ _ hus' _ hus _ => ?_
  have hdoc := hus.firstDoc_stands hdoc
  have hstart := hstart.suffix h hus'
  dsimp only
  split
  · exact (lays_readConstants hus hstart hdoc).map fun _ _ _ hcs =>
      { Members.stands_empty _ _ with constants := fun c hc => (hcs c hc).1 }
  split
  · exact (lays_readMethod hus hstart hdoc).map fun _ _ _ hm =>
      { Members.stands_empty _ _ with methods := by simpa [Members.add] using hm }
  · exact (lays_readProperties hus hstart hdoc).map fun _ _ _ hps =>
      { Members.stands_empty _ _ with properties := fun p hp => (hps p hp).1 }

/-- **One statement in the body of a class** stands where it was read. -/
theorem lays_readMember (h : Laid env lo ts) :
    Lays env lo (readMember env ts) (fun hi m => m.Stands env.source ⟨lo, hi⟩)
      (Fault.Lies env) := by
  refine lays_onNext h (fun t us _ _ _ _ hus => lays_done hus (Members.stands_empty _ _)) ?_
  dsimp only
  split
  · exact (lays_readTraitUse h).map fun _ _ _ huse =>
      { Members.stands_empty _ _ with traitUses := by simpa [Members.add] using huse.1 }
  · refine (lays_skipAttributes ts h).andThen fun _ us _ _ hus' _ hus _ => ?_
    have hdoc := h.firstDocs_stand hus
    have hstart := h.heads.suffix h hus'
    split
    · exact (lays_readCase hus hstart hdoc).map fun _ _ _ hc =>
        { Members.stands_empty _ _ with cases := by simpa [Members.add] using hc.1 }
    · exact lays_readModified hus hstart hdoc

end Members

end PhpHandbook.Declaration
