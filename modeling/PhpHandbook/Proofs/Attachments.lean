import PhpHandbook.Proofs.DocGaps
import PhpHandbook.Proofs.FilePlaces
import PhpHandbook.Proofs.ReaderLoops

/-!
# Comments belong to one declaration

Each declaration of a file has its documentation from the gaps in front of it, as far as its kind
looks, and a use of traits has all comments directly in front of it.  No comment goes to two
declarations: what a declaration takes lies between the offset where reading it began and its first
words, and all that is read of others lies in front of this or behind it.  Only the constants or the
properties of one statement have their comment in common.

## Main definitions

* `Site`: where a declaration begins, and the comments that belong to it.
* `Site.Documented`: the comments of a site are those of its gaps.
* `Attached`: sites between two offsets, documented and apart.

## Main statements

* `attaches_readMember`, `attaches_readClass`: what is read is attached between two offsets.
* `parse_documented`: the comments of all declarations of a source.
-/

namespace PhpHandbook.Declaration

open Source (Span Token tokenize)

/-! ### Sites -/

/-- What comments are attached to. -/
inductive SiteKind where
  | classLike
  | traitUse
  | case
  | constant
  | property
  | method
  | param
deriving DecidableEq

/-- **A declaration and its comments**: where its first token starts, and what is attached to it. -/
structure Site where
  kind : SiteKind
  start : Nat
  comments : List Comment
deriving DecidableEq

def TraitUse.site (use : TraitUse) : Site :=
  ⟨.traitUse, use.span.start, use.comments⟩

def EnumCase.site (c : EnumCase) : Site :=
  ⟨.case, c.span.start, c.doc.toList⟩

def Constant.site (c : Constant) : Site :=
  ⟨.constant, c.span.start, c.doc.toList⟩

def Property.site (p : Property) : Site :=
  ⟨.property, p.span.start, p.doc.toList⟩

def Param.site (p : Param) : Site :=
  ⟨.param, p.span.start, p.doc.toList⟩

def Method.site (m : Method) : Site :=
  ⟨.method, m.span.start, m.doc.toList⟩

/-- A method and its parameters. -/
def Method.sites (m : Method) : List Site :=
  m.site :: m.params.map Param.site

def Members.sites (ms : Members) : List Site :=
  ms.traitUses.map TraitUse.site ++ ms.constants.map Constant.site ++ ms.cases.map EnumCase.site ++
    ms.properties.map Property.site ++ ms.methods.flatMap Method.sites

def ClassLike.site (c : ClassLike) : Site :=
  ⟨.classLike, c.span.start, c.doc.toList⟩

/-- A class and its members. -/
def ClassLike.sites (c : ClassLike) : List Site :=
  c.site :: c.toMembers.sites

/-- **All declarations of a file** that comments are attached to. -/
def SourceFile.sites (f : SourceFile) : List Site :=
  f.classes.flatMap ClassLike.sites

/-- What one statement in the body of a class adds. -/
def Member.sites (m : Member) : List Site :=
  (Members.add {} m).sites

theorem Members.sites_add (ms : Members) (m : Member) :
    (ms.add m).sites.Perm (ms.sites ++ m.sites) := by
  rw [List.perm_iff_count]
  intro s
  cases m <;>
    simp [Member.sites, Members.add, Members.sites, List.count_cons, List.count_append] <;> omega

/-! ### What is to be said of sites -/

/-- The items from the first token of a declaration on. -/
structure Begins (items ts : List Item) (start : Nat) : Prop where
  suffix : ts <:+ items
  start_eq : ∃ i ∈ ts.head?, i.token.span.start = start

/-- What stands behind the modifiers of a member tells what it is. -/
def SiteKind.AnnouncedBy (rest : List Item) : SiteKind → Prop
  | .constant => next (isKeyword .kwConst) rest = true
  | .method => next (isKeyword .kwFunction) rest = true
  | .property =>
    next (isKeyword .kwConst) rest = false ∧ next (isKeyword .kwFunction) rest = false
  | _ => False

/-- **The comments of a declaration are those of its gaps**: of the one directly in front of it for
a use of traits, and else the documentation in the gaps in front of its first token, behind its
attribute groups and, for members and classes, behind its modifiers. -/
inductive Site.Documented (items : List Item) : Site → Prop
  | traitUse {ts : List Item} {start : Nat} (hbegins : Begins items ts start)
    (hword : next (isKeyword .kwUse) ts) : Documented items ⟨.traitUse, start, gap ts⟩
  | case {ts us : List Item} {start : Nat} {comments : List Comment}
    (hbegins : Begins items ts start) (hattributes : AttributesEnd ts us)
    (hword : next (isKeyword .kwCase) us)
    (hfound : FoundIn [gap ts, gap us] comments) : Documented items ⟨.case, start, comments⟩
  | param {ts us : List Item} {start : Nat} {comments : List Comment}
    (hbegins : Begins items ts start) (hattributes : AttributesEnd ts us)
    (hfound : FoundIn [gap ts, gap us] comments) :
    Documented items ⟨.param, start, comments⟩
  | member {kind : SiteKind} {ts us vs : List Item} {start : Nat} {comments : List Comment}
    (hbegins : Begins items ts start) (hattributes : AttributesEnd ts us)
    (hmodifiers : ModifiersEnd modifiesMember isVisibility us vs) (hword : kind.AnnouncedBy vs)
    (hfound : FoundIn [gap ts, gap us, gap vs] comments) :
      Documented items ⟨kind, start, comments⟩
  | classLike {ts us vs : List Item} {start : Nat} {comments : List Comment}
    (hbegins : Begins items ts start) (hattributes : AttributesEnd ts us)
    (hmodifiers : ModifiersEnd modifiesClass (fun _ => false) us vs)
    (hword : next (fun i => (classKind? i.kind).isSome) vs)
    (hfound : FoundIn [gap ts, gap us, gap vs] comments) :
    Documented items ⟨.classLike, start, comments⟩

/-- Constants or properties of one statement, which share its start and its comment. -/
def Site.OneStatement (a b : Site) : Prop :=
  a = b ∧ (a.kind = .constant ∨ a.kind = .property)

/-- **Two declarations apart**: they start at different places, and no comment belongs to both. -/
structure Site.Apart (a b : Site) : Prop where
  start_ne : a.start ≠ b.start
  comments_ne : ∀ c ∈ a.comments, ∀ d ∈ b.comments, c.span ≠ d.span

/-- Two declarations with comments of their own, unless one statement makes both. -/
def Site.Own (a b : Site) : Prop :=
  a.OneStatement b ∨ a.Apart b

theorem Site.Own.symm {a b : Site} (h : a.Own b) : b.Own a := by
  rcases h with ⟨rfl, hkind⟩ | hapart
  · exact .inl ⟨rfl, hkind⟩
  · exact .inr ⟨hapart.start_ne.symm, fun d hd c hc => (hapart.comments_ne c hc d hd).symm⟩

/-- A site between two offsets. -/
structure Site.Within (lo hi : Nat) (s : Site) : Prop where
  le : lo ≤ s.start
  lt : s.start < hi
  comments : ∀ c ∈ s.comments, c.span.Inside ⟨lo, hi⟩ ∧ c.span.start < c.span.stop

theorem Site.Within.widen {lo lo' hi hi' : Nat} {s : Site} (h : s.Within lo hi) (hlo : lo' ≤ lo)
    (hhi : hi ≤ hi') : s.Within lo' hi' :=
  ⟨hlo.trans h.le, Nat.lt_of_lt_of_le h.lt hhi, fun c hc =>
    ⟨(h.comments c hc).1.widen hlo hhi, (h.comments c hc).2⟩⟩

/-- Sites one behind the other are apart. -/
theorem Site.Within.apart {lo mid hi : Nat} {a b : Site} (ha : a.Within lo mid)
    (hb : b.Within mid hi) :
    a.Apart b := by
  refine ⟨Nat.ne_of_lt (Nat.lt_of_lt_of_le ha.lt hb.le), fun c hc d hd heq => ?_⟩
  obtain ⟨hinside, hlt⟩ := ha.comments c hc
  have hle : mid ≤ c.span.start := heq ▸ (hb.comments d hd).1.start_le
  exact absurd (Nat.lt_of_le_of_lt hle hlt) (Nat.not_lt.2 hinside.stop_le)

/-- **Attached between two offsets**: documented declarations that have their own comments. -/
structure Attached (items : List Item) (lo hi : Nat) (sites : List Site) : Prop where
  within : ∀ s ∈ sites, s.Within lo hi
  documented : ∀ s ∈ sites, s.Documented items
  own : sites.Pairwise Site.Own

section Attached

variable {items : List Item} {lo mid hi : Nat} {sites sites' : List Site}

theorem attached_nil (items : List Item) (lo hi : Nat) : Attached items lo hi [] :=
  ⟨by simp, by simp, .nil⟩

theorem Attached.widen {lo' hi' : Nat} (h : Attached items lo hi sites) (hlo : lo' ≤ lo)
    (hhi : hi ≤ hi') : Attached items lo' hi' sites :=
  { h with within := fun s hs => (h.within s hs).widen hlo hhi }

/-- **One behind the other.** -/
theorem Attached.append (h : Attached items lo mid sites) (h' : Attached items mid hi sites')
    (hlo : lo ≤ mid) (hhi : mid ≤ hi) : Attached items lo hi (sites ++ sites') where
  within := List.forall_mem_append.2 ⟨(h.widen (Nat.le_refl _) hhi).within,
    (h'.widen hlo (Nat.le_refl _)).within⟩
  documented := List.forall_mem_append.2 ⟨h.documented, h'.documented⟩
  own := List.pairwise_append.2 ⟨h.own, h'.own, fun a ha b hb =>
    .inr ((h.within a ha).apart (h'.within b hb))⟩

theorem Attached.perm (h : Attached items lo hi sites) (hperm : sites'.Perm sites) :
    Attached items lo hi sites' where
  within s hs := h.within s (hperm.subset hs)
  documented s hs := h.documented s (hperm.subset hs)
  own := (hperm.pairwise_iff Site.Own.symm).2 h.own

theorem attached_singleton {s : Site} (hwithin : s.Within lo hi)
    (hdocumented : s.Documented items) :
    Attached items lo hi [s] :=
  ⟨by simpa using hwithin, by simpa using hdocumented, List.pairwise_singleton _ _⟩

/-- The constants or properties of one statement. -/
theorem attached_of_forall_eq {s : Site} (hwithin : s.Within lo hi)
    (hdocumented : s.Documented items) (hkind : s.kind = .constant ∨ s.kind = .property)
    (h : ∀ s' ∈ sites, s' = s) :
    Attached items lo hi sites where
  within s' hs' := h s' hs' ▸ hwithin
  documented s' hs' := h s' hs' ▸ hdocumented
  own := List.pairwise_of_forall_mem_list fun a ha b hb =>
    .inl ⟨(h a ha).trans (h b hb).symm, (h a ha).symm ▸ hkind⟩

end Attached

/-! ### What readings leave -/

section Leaves

variable {ε α β : Type} {env : Env} {lo : Nat} {ts : List Item} {r : Reading Item ε α ts}

theorem gives_of_advances (h : r.Advances) :
    Gives r fun _ rest => rest <:+ ts ∧ rest.length < ts.length :=
  fun a ha => ⟨r.suffix, h a ha⟩

/-- Readings one after the other, with what is known of what the first one leaves. -/
theorem Lays.andThen_gives {P : Nat → α → Prop} {Q : Nat → β → Prop}
    {R : α → List Item → Prop} {E : ε → Prop}
    {next : α → (us : List Item) → us.length ≤ ts.length → Reading Item ε β us}
    (h : Lays env lo r P E) (hr : Gives r R)
    (hnext : ∀ a us le mid, us <:+ ts → lo ≤ mid → Laid env mid us →
      P mid a → R a us →
      Lays env mid (next a us le) Q E) : Lays env lo (r.andThen next) Q E :=
  h.andThen_outcome fun a le mid ha hmid hrest hP =>
    hnext a r.rest le mid r.suffix hmid hrest hP (hr a ha)

end Leaves

/-! ### The front of a declaration -/

/-- **The front of a declaration** up to what is left: where it starts, and the documentation found
in the gaps looked into so far. -/
structure Front (env : Env) (lo : Nat) (gaps : List (List Comment)) (doc : Option Comment)
    (start : Span) (ts : List Item) : Prop extends Heads env lo start ts where
  lt : start.start < start.stop
  found : doc = gaps.findSome? lastDoc?
  stands : ∀ c ∈ doc, CommentStands env.source lo (env.current ts).span.start c

section Front

variable {env : Env} {lo lo' : Nat} {gaps : List (List Comment)} {doc : Option Comment}
  {start : Span} {ts us : List Item}

theorem front_first {t : Item} (h : Laid env lo (t :: us)) :
    Front env lo [gap (t :: us)] (docComment? (t :: us)) t.token.span (t :: us) :=
  { h.heads with
    lt := h.1.token.lt
    found := docComment?_eq_findSome? _
    stands := h.docComment?_stands }

/-- Passing over something else. -/
theorem Front.suffix (hfront : Front env lo' gaps doc start ts) (h : Laid env lo ts)
    (hus : us <:+ ts) :
    Front env lo' gaps doc start us :=
  { hfront.toHeads.suffix h hus with
    lt := hfront.lt
    found := hfront.found
    stands := fun c hc => { hfront.stands c hc with
      inside := (hfront.stands c hc).inside.widen (Nat.le_refl _) (h.current_le hus).1 } }

/-- Looking into the gap in front of the next token. -/
theorem Front.look (hfront : Front env lo' gaps doc start ts) (h : Laid env lo ts)
    (hle : lo' ≤ lo) :
    Front env lo' (gaps ++ [gap ts]) (firstDoc doc ts) start ts := by
  refine { hfront with found := ?_, stands := fun c hc => ?_ }
  · rw [hfront.found, firstDoc_findSome?]
  · cases doc with
    | none =>
      have hstands := h.docComment?_stands c hc
      exact { hstands with inside := hstands.inside.widen hle (Nat.le_refl _) }
    | some d => exact hfront.stands c hc

theorem Front.doc_stands (hfront : Front env lo gaps doc start ts) :
    ∀ c ∈ doc, c.Stands env.source :=
  fun c hc => (hfront.stands c hc).marks

theorem Front.foundIn (hfront : Front env lo gaps doc start ts) : FoundIn gaps doc.toList :=
  hfront.found ▸ foundIn_findSome? gaps

/-- What is announced lies behind `lo'` once the next token has been passed. -/
theorem Front.within {hi : Nat} (hfront : Front env lo' gaps doc start ts) (h : Laid env lo ts)
    (hhi : (env.current ts).span.stop ≤ hi) (kind : SiteKind) :
    Site.Within lo' hi ⟨kind, start.start, doc.toList⟩ where
  le := hfront.lo_le
  lt := Nat.lt_of_lt_of_le hfront.lt (hfront.stop_le.trans hhi)
  comments c hc :=
    have hstands := hfront.stands c (Option.mem_toList.1 hc)
    ⟨hstands.inside.widen (Nat.le_refl _) (h.current.le.trans hhi), hstands.lt⟩

/-- A reading that passes the next token leaves behind what is announced. -/
theorem Front.passed {ε α : Type} {r : Reading Item ε α us} {Q : α → Prop}
    {E : ε → Prop} {mid : Nat} (hfront : Front env lo' gaps doc start ts) (h : Laid env mid ts)
    (hr : Lays env lo r (fun _ a => Q a) E)
    (hbehind : Gives r fun _ rest => rest <:+ ts ∧ rest.length < ts.length) :
    Lays env lo r
      (fun hi a => Q a ∧ ∀ kind, Site.Within lo' hi ⟨kind, start.start, doc.toList⟩) E :=
  (hr.passed h hbehind fun _ _ _ _ ha => ha).imp fun _ _ _ ha => ⟨ha.1, hfront.within h ha.2⟩

end Front

theorem begins_cons {items us : List Item} {t : Item} (h : t :: us <:+ items) :
    Begins items (t :: us) t.token.span.start :=
  ⟨h, t, rfl, rfl⟩

/-! ### Members -/

section Members

variable {env : Env} {items : List Item} {lo lo' : Nat} {gaps : List (List Comment)}
  {doc : Option Comment} {start : Span} {modifiers : Modifiers} {ts : List Item}

theorem attaches_readTraitUse (h : Laid env lo ts) (hts : ts <:+ items)
    (hword : next (isKeyword .kwUse) ts = true) :
    Lays env lo (readTraitUse env ts) (fun hi use => Attached items lo hi [use.site])
      (Fault.Lies env) := by
  cases ts with
  | nil => cases hword
  | cons t us =>
    have hread := ((lays_readTraitUse h).imp fun _ _ _ huse => huse.2).passed h
      (gives_of_advances ((expectKeyword_advances _ _ _).andThen _)) fun _ _ _ _ huse => huse
    refine hread.imp fun hi use _ ⟨⟨hcomments, hstart⟩, hpassed⟩ => ?_
    have hsite : use.site = ⟨.traitUse, t.token.span.start, gap (t :: us)⟩ := by
      rw [TraitUse.site, hcomments, hstart]
      rfl
    have hlt : t.token.span.start < hi := Nat.lt_of_lt_of_le h.1.token.lt hpassed
    rw [hsite]
    refine attached_singleton ⟨h.1.token.le, hlt, fun c hc => ?_⟩
      (.traitUse (begins_cons hts) hword)
    have hstands := h.1.comments c hc
    exact ⟨hstands.inside.widen (Nat.le_refl _) (Nat.le_of_lt hlt), hstands.lt⟩

theorem attaches_readCase (h : Laid env lo ts) (hfront : Front env lo' gaps doc start ts)
    (hdocumented : Site.Documented items ⟨.case, start.start, doc.toList⟩) :
    Lays env lo (readCase env doc start ts) (fun hi c => Attached items lo' hi [c.site])
      (Fault.Lies env) := by
  have hread := (lays_readCase h hfront.toHeads hfront.doc_stands).imp fun _ _ _ hc => hc.2
  refine (hfront.passed h hread (gives_of_advances ((expectKeyword_advances _ _ _).andThen _))).imp
    fun hi c _ ⟨hc, hwithin⟩ => ?_
  rw [EnumCase.site, hc.doc_eq, hc.start_eq]
  exact attached_singleton (hwithin _) hdocumented

theorem attaches_readConstants (h : Laid env lo ts) (hfront : Front env lo' gaps doc start ts)
    (hdocumented : Site.Documented items ⟨.constant, start.start, doc.toList⟩) :
    Lays env lo (readConstants env modifiers doc start ts)
      (fun hi cs => Attached items lo' hi (cs.map Constant.site)) (Fault.Lies env) := by
  have hread : Lays env lo (readConstants env modifiers doc start ts)
      (fun _ cs => ∀ c ∈ cs, Announced doc start c.doc c.span) (Fault.Lies env) :=
    (lays_readConstants h hfront.toHeads hfront.doc_stands).imp fun _ _ _ hcs c hc => (hcs c hc).2
  refine (hfront.passed h hread (gives_of_advances ((expectKeyword_advances _ _ _).andThen _))).imp
    fun hi cs _ ⟨hcs, hwithin⟩ => ?_
  refine attached_of_forall_eq (hwithin _) hdocumented (.inl rfl)
    (List.forall_mem_map.2 fun c hc => ?_)
  rw [Constant.site, (hcs c hc).doc_eq, (hcs c hc).start_eq]

theorem attaches_readProperties (h : Laid env lo ts) (hfront : Front env lo' gaps doc start ts)
    (hdocumented : Site.Documented items ⟨.property, start.start, doc.toList⟩) :
    Lays env lo (readProperties env modifiers doc start ts)
      (fun hi ps => Attached items lo' hi (ps.map Property.site)) (Fault.Lies env) := by
  have hread : Lays env lo (readProperties env modifiers doc start ts)
      (fun _ ps => ∀ p ∈ ps, Announced doc start p.doc p.span) (Fault.Lies env) :=
    (lays_readProperties h hfront.toHeads hfront.doc_stands).imp fun _ _ _ hps p hp => (hps p hp).2
  have hadvances : (readProperties env modifiers doc start ts).Advances :=
    Reading.advances_andThen _ fun _ _ _ => readPropertyList_advances _ _ _
  refine (hfront.passed h hread (gives_of_advances hadvances)).imp
    fun hi ps _ ⟨hps, hwithin⟩ => ?_
  refine attached_of_forall_eq (hwithin _) hdocumented (.inr rfl)
    (List.forall_mem_map.2 fun p hp => ?_)
  rw [Property.site, (hps p hp).doc_eq, (hps p hp).start_eq]

/-! ### Methods -/

/-- A parameter is read behind its attribute groups. -/
theorem readParam_gives (env : Env) (ts : List Item) :
    Gives (readParam env ts) fun _ rest => AttributesEnd ts (skipAttributes ts).rest ∧
      rest <:+ (skipAttributes ts).rest ∧ rest.length < (skipAttributes ts).rest.length := by
  intro p hp
  rw [readParam] at hp ⊢
  obtain ⟨a, ha, hnext⟩ := Reading.outcome_andThen_eq_ok hp
  rw [Reading.andThen_of_ok ha]
  refine ⟨skipAttributes_gives ts a ha, gives_of_advances ?_ p hnext⟩
  refine Reading.advances_andThen _ fun _ _ _ => Reading.advances_andThen _ fun _ _ _ =>
    Reading.advances_andThen _ fun _ _ _ => Reading.advances_andThen _ fun _ _ _ => ?_
  exact ((Reading.advances_expect _ _ _).map _).andThen _

theorem attaches_readParam (h : Laid env lo ts) (hts : ts <:+ items) :
    Lays env lo (readParam env ts) (fun hi p => Attached items lo hi [p.site])
      (Fault.Lies env) := by
  cases ts with
  | nil => exact lays_nil (lays_readParam h) (readParam_advances env _)
  | cons t us =>
    have hrest := (skipAttributes (t :: us)).suffix
    have hgives := readParam_gives env (t :: us)
    have hfront := ((front_first h).suffix h hrest).look (h.suffix hrest) (Nat.le_refl _)
    have hread := (lays_readParam h).imp fun _ _ _ hp => hp.2
    have hpassed := hfront.passed (h.suffix hrest) hread fun p hp => (hgives p hp).2
    refine ⟨fun p hp => ?_, hpassed.fails⟩
    obtain ⟨hi, hle, hlaid, hp', hwithin⟩ := hpassed.gives p hp
    refine ⟨hi, hle, hlaid, ?_⟩
    rw [Param.site, hp'.doc_eq, hp'.start_eq]
    exact attached_singleton (hwithin _) (.param (begins_cons hts) (hgives p hp).1 hfront.foundIn)

theorem attaches_readParamList (ts : List Item) {lo : Nat} (h : Laid env lo ts)
    (hts : ts <:+ items) :
    Lays env lo (readParamList env ts) (fun hi ps => Attached items lo hi (ps.map Param.site))
      (Fault.Lies env) := by
  unfold readParamList
  split
  · exact lays_done h (attached_nil _ _ _)
  · refine (attaches_readParam h hts).andThen fun p us _ mid hus' hmid hus hp => ?_
    refine lays_onNext hus (fun t vs _ hvs' _ ht hvs => ?_) (lays_done hus hp)
    have hvs' : vs <:+ items := (hvs' ▸ List.suffix_cons t vs : vs <:+ us).trans (hus'.trans hts)
    refine (attaches_readParamList vs hvs hvs').map fun hi ps hhi hps => ?_
    exact hp.append (hps.widen ht.stop_le (Nat.le_refl _)) hmid (ht.stop_le.trans hhi)
termination_by ts.length
decreasing_by omega

theorem attaches_readParams (h : Laid env lo ts) (hts : ts <:+ items) :
    Lays env lo (readParams env ts) (fun hi ps => Attached items lo hi (ps.map Param.site))
      (Fault.Lies env) := by
  refine (lays_expectMark h _).andThen fun _ us _ _ hus' hmid hus _ => ?_
  refine (attaches_readParamList us hus (hus'.trans hts)).andThen fun ps vs _ _ _ _ hvs hps => ?_
  exact (lays_expectMark hvs _).map fun hi _ hhi _ => hps.widen hmid hhi

/-- **A method and its parameters**, which stand behind its first word. -/
theorem attaches_readMethod (h : Laid env lo ts) (hts : ts <:+ items)
    (hfront : Front env lo' gaps doc start ts)
    (hdocumented : Site.Documented items ⟨.method, start.start, doc.toList⟩) :
    Lays env lo (readMethod env modifiers doc start ts) (fun hi m => Attached items lo' hi m.sites)
      (Fault.Lies env) := by
  rw [readMethod]
  refine (lays_expectKeyword h _).andThen fun _ us _ mid hus' _ hus hword => ?_
  obtain ⟨i, htaken, -⟩ := hword
  have hwithin := hfront.within h (Nat.le_of_eq (htaken.current_eq env ▸ htaken.stop_eq)) .method
  have hbefore : start.Inside ⟨lo', mid⟩ :=
    ⟨hfront.lo_le, hfront.le, (hfront.toHeads.taken htaken).2⟩
  refine (lays_skipMark hus _).andThen fun _ vs _ _ hvs' hmid₁ hvs _ => ?_
  refine (lays_readMemberName hvs).andThen fun name ws _ _ hws' hmid₂ hws _ => ?_
  have hsuffix : ws <:+ items := hws'.trans (hvs'.trans (hus'.trans hts))
  refine (attaches_readParams hws hsuffix).andThen fun params xs _ _ _ hmid₃ hxs hparams => ?_
  refine (lays_readReturnHint hxs).andThen fun type ys _ _ _ hmid₄ hys _ => ?_
  refine (lays_readMethodEnd hys).map fun hi r hhi hend => ?_
  have hle := hmid₁.trans hmid₂
  have hle' := hmid₄.trans hhi
  have hstop := hend.widen (hle.trans (hmid₃.trans hmid₄)) (Nat.le_refl hi)
  rw [Method.sites, Method.site, hbefore.merge_start hstop]
  exact (attached_singleton hwithin hdocumented).append (hparams.widen hle hle')
    (hwithin.le.trans (Nat.le_of_lt hwithin.lt)) (hle.trans (hmid₃.trans hle'))

/-! ### Statements in bodies of classes -/

@[simp]
theorem Member.sites_nothing : Member.nothing.sites = [] := rfl

@[simp]
theorem Member.sites_traitUse (use : TraitUse) : (Member.traitUse use).sites = [use.site] := rfl

@[simp]
theorem Member.sites_case (c : EnumCase) : (Member.case c).sites = [c.site] := rfl

@[simp]
theorem Member.sites_constants (cs : List Constant) :
    (Member.constants cs).sites = cs.map Constant.site := by
  simp [sites, Members.sites, Members.add]

@[simp]
theorem Member.sites_properties (ps : List Property) :
    (Member.properties ps).sites = ps.map Property.site := by
  simp [sites, Members.sites, Members.add]

@[simp]
theorem Member.sites_method (m : Method) : (Member.method m).sites = m.sites := by
  simp [sites, Members.sites, Members.add]

/-- A member from its modifiers on. -/
theorem attaches_readModified {first : List Item} (h : Laid env lo ts) (hts : ts <:+ items)
    (hle : lo' ≤ lo) (hbegins : Begins items first start.start)
    (hattributes : AttributesEnd first ts)
    (hfront : Front env lo' [gap first, gap ts] doc start ts) :
    Lays env lo (readModified env doc start ts) (fun hi m => Attached items lo' hi m.sites)
      (Fault.Lies env) := by
  refine (lays_readModifiers _ ts h).andThen_gives (readModifiers_gives env _ ts)
    fun modifiers us _ mid hus' hmid hus _ hmodifiers => ?_
  have hfront := (hfront.suffix h hus').look hus (hle.trans hmid)
  have hdocumented : ∀ {kind : SiteKind}, kind.AnnouncedBy us →
      Site.Documented items ⟨kind, start.start, (firstDoc doc us).toList⟩ := fun hword =>
    .member hbegins hattributes hmodifiers hword hfront.foundIn
  dsimp only
  split
  · next hconst =>
    refine (attaches_readConstants hus hfront (hdocumented hconst)).map fun _ cs _ hcs => ?_
    rwa [Member.sites_constants]
  next hconst =>
  split
  · next hfunction =>
    refine (attaches_readMethod hus (hus'.trans hts) hfront (hdocumented hfunction)).map
      fun _ m _ hm => ?_
    rwa [Member.sites_method]
  · next hfunction =>
    have hword : SiteKind.AnnouncedBy us .property :=
      ⟨by simpa using hconst, by simpa using hfunction⟩
    refine (attaches_readProperties hus hfront (hdocumented hword)).map fun _ ps _ hps => ?_
    rwa [Member.sites_properties]

/-- **One statement in the body of a class.** -/
theorem attaches_readMember (h : Laid env lo ts) (hts : ts <:+ items) :
    Lays env lo (readMember env ts) (fun hi m => Attached items lo hi m.sites)
      (Fault.Lies env) := by
  cases ts with
  | nil => exact lays_nil (lays_readMember h) (readMember_advances env _)
  | cons t us =>
    have hbegins := begins_cons hts
    refine lays_onNext h (fun _ _ _ _ _ _ hus => lays_done hus (attached_nil _ _ _)) ?_
    dsimp only
    split
    · next hword => exact (attaches_readTraitUse h hts hword).map fun _ _ _ huse => huse
    · refine (lays_skipAttributes _ h).andThen_gives (skipAttributes_gives _)
        fun _ vs _ mid hvs' hmid hvs _ hattributes => ?_
      have hfront := ((front_first h).suffix h hvs').look hvs hmid
      split
      · next hword =>
        exact (attaches_readCase hvs hfront (.case hbegins hattributes hword hfront.foundIn)).map
          fun _ _ _ hc => hc
      · exact attaches_readModified hvs (hvs'.trans hts) hmid hbegins hattributes hfront

end Members

/-! ### Classes -/

section Classes

variable {env : Env} {items : List Item} {lo lo' : Nat} {ts : List Item}

/-- The members of a class, one statement behind the other. -/
theorem attaches_readBody (h : Laid env lo ts) (hts : ts <:+ items) :
    Lays env lo (readBody env {} ts) (fun hi r => lo ≤ hi ∧ Attached items lo hi r.1.sites)
      (Fault.Lies env) := by
  have hstep : ∀ us mid (ms : Members), us <:+ items → Laid env mid us →
      lo ≤ mid ∧ Attached items lo mid ms.sites → Lays env mid (readMember env us)
        (fun hi m => lo ≤ hi ∧ Attached items lo hi (ms.add m).sites) (Fault.Lies env) := by
    intro us mid ms hus' hus ⟨hle, hms⟩
    refine (attaches_readMember hus hus').imp fun hi m hhi hm => ⟨hle.trans hhi, ?_⟩
    exact (hms.append hm hle hhi).perm (ms.sites_add m)
  exact (lays_readBody (P := fun hi ms => lo ≤ hi ∧ Attached items lo hi ms.sites)
    hstep ts hts h ⟨Nat.le_refl _, attached_nil _ _ _⟩).imp fun _ _ _ hr => hr.1

/-- The word that announces a class, behind what is documented. -/
theorem attaches_readClassKind {gaps : List (List Comment)} {doc : Option Comment} {start : Span}
    (h : Laid env lo ts) (hfront : Front env lo' gaps doc start ts)
    (hdocumented : next (fun i => (classKind? i.kind).isSome) ts = true →
      Site.Documented items ⟨.classLike, start.start, doc.toList⟩) :
    Lays env lo (readClassKind env ts) (fun hi _ => start.Inside ⟨lo', hi⟩ ∧
      Attached items lo' hi [⟨.classLike, start.start, doc.toList⟩]) (Fault.Lies env) := by
  refine (lays_expect h (h.unexpected_lies _)).map fun hi i _ ⟨htaken, hword⟩ => ?_
  have hpassed : (env.current ts).span.stop = hi := htaken.current_eq env ▸ htaken.stop_eq
  have hnext : next (fun i => (classKind? i.kind).isSome) ts = true := by
    rw [next, htaken.head]
    exact hword
  exact ⟨⟨hfront.lo_le, hfront.le, hpassed ▸ hfront.stop_le⟩,
    attached_singleton (hfront.within h (Nat.le_of_eq hpassed) _) (hdocumented hnext)⟩

/-- **The header of a class**, which takes what is documented in front of its first word. -/
theorem attaches_readHeader (h : Laid env lo ts) (hts : ts <:+ items) :
    Lays env lo (readHeader env ts)
      (fun hi c => c.span.Inside ⟨lo, hi⟩ ∧ Attached items lo hi [c.site])
      (Fault.Lies env) := by
  cases ts with
  | nil => exact lays_nil (lays_readHeader h) (readHeader_advances env _)
  | cons t us =>
    rw [readHeader]
    refine (lays_skipAttributes _ h).andThen_gives (skipAttributes_gives _)
      fun _ vs _ _ hvs' hmid hvs _ hattributes => ?_
    have hfront := ((front_first h).suffix h hvs').look hvs hmid
    refine (lays_readClassModifiers _ hvs).andThen_gives (readClassModifiers_gives _ vs)
      fun modifiers ws _ _ hws' hmid' hws _ hmodifiers => ?_
    have hfront := (hfront.suffix hvs hws').look hws (hmid.trans hmid')
    refine (attaches_readClassKind hws hfront fun hword => .classLike (begins_cons hts) hattributes
      hmodifiers hword hfront.foundIn).andThen fun kind xs _ _ _ _ hxs hfound => ?_
    refine (lays_readIdent hxs).andThen fun name ys _ mid _ hmid₁ hys _ => ?_
    have hbacking : Lays env mid (if kind = .enum then readReturnHint env ys else .done none)
        (fun _ _ => True) (Fault.Lies env) := by
      split
      · exact (lays_readReturnHint hys).imp fun _ _ _ _ => trivial
      · exact lays_done hys trivial
    refine hbacking.andThen fun backingType zs _ _ _ hmid₂ hzs _ => ?_
    refine (lays_readNamesAfter hzs).andThen fun parents as _ _ _ hmid₃ has _ => ?_
    refine (lays_readNamesAfter has).andThen fun implements bs _ _ _ hmid₄ hbs _ => ?_
    refine (lays_expectMark hbs _).map fun hi _ hhi _ => ?_
    have hle := hmid₁.trans (hmid₂.trans (hmid₃.trans (hmid₄.trans hhi)))
    exact ⟨hfound.1.widen (Nat.le_refl _) hle, hfound.2.widen (Nat.le_refl _) hle⟩

/-- **A class and its members**, which stand behind its header. -/
theorem attaches_readClass (h : Laid env lo ts) (hts : ts <:+ items) :
    Lays env lo (readClass env ts) (fun hi r => lo ≤ hi ∧ Attached items lo hi r.1.sites)
      fun _ => True := by
  rw [readClass]
  refine ((attaches_readHeader h hts).mapError fun _ _ => trivial).andThen
    fun header us _ mid hus' hmid hus hheads => ?_
  obtain ⟨hspan, hheader⟩ := hheads
  refine ((attaches_readBody hus (hus'.trans hts)).mapError fun _ _ => trivial).andThen
    fun r vs _ mid' _ hmid' hvs hr => ?_
  refine ((lays_expectMark hvs _).mapError fun _ _ => trivial).map fun hi _ hhi hclosing => ?_
  obtain ⟨closing, hclosing, rfl⟩ := hclosing
  have hstart := (hspan.widen (Nat.le_refl _) hmid').merge_start hclosing.inside
  refine ⟨hmid.trans (hmid'.trans hhi), ?_⟩
  rw [ClassLike.sites, ClassLike.site, hstart]
  exact hheader.append (hr.2.widen (Nat.le_refl _) hhi) hmid (hmid'.trans hhi)

end Classes

/-! ### Files -/

/-- The items of a text, up to its end. -/
def textItems (source : List Char) : List Item :=
  (attachComments [] (tokenize source).tokens).dropLast

/-- **Comments belong to one declaration.**  The items of a source hold the comments of their gaps.
In a file that is read, the documentation of a declaration is the last documentation comment in the
first of its gaps that has one, and a use of traits has the comments directly in front of it.  No
comment belongs to two declarations, but the constants or the properties of one statement have
theirs in common. -/
theorem parse_documented (source : List Char) :
    (∀ i ∈ textItems source, InGap (tokenize source).tokens i) ∧
      match (parse source).outcome with
      | .ok file =>
        (∀ s ∈ file.sites, s.Documented (textItems source)) ∧ file.sites.Pairwise Site.Own
      | .error _ => True := by
  refine ⟨fun i hi => ?_, ?_⟩
  · have hgap := @inGap_of_mem_attachComments [] [] (tokenize source).tokens (by simp) (by simp) i
    exact hgap (List.dropLast_subset _ hi)
  · obtain ⟨items, comments, eof, hitems, hlaid⟩ := laid_tokenize source
    have hsame : textItems source = items := by rw [textItems, hitems, List.dropLast_concat]
    have hfile := parse_classes
      (P := fun hi cs => Attached items 0 hi (cs.flatMap ClassLike.sites)) hitems hlaid
      (attached_nil _ _ _) fun us lo cs hus' hus hcs => ?_
    · rw [hsame]
      cases hparsed : (parse source).outcome with
      | ok file =>
        rw [hparsed] at hfile
        obtain ⟨hi, hattached⟩ := hfile
        exact ⟨hattached.documented, hattached.own⟩
      | error faults => trivial
    · refine (attaches_readClass hus hus').imp fun hi r hhi hr => ?_
      rw [List.flatMap_append, List.flatMap_singleton]
      exact hcs.append hr.2 (Nat.zero_le _) hhi

end PhpHandbook.Declaration
