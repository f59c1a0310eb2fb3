import PhpHandbook.Proofs.BodyStops
import PhpHandbook.Proofs.Places

/-!
# Where the declarations of a file stand

A class covers its members, and the classes of a file lie one behind the other: each is read from
where the one before it left off.  A source that is not read reports faults, and these lie in it.

## Main definitions

* `ClassLike.Stands`: a class at its place, with all that it is made of.
* `ClassesStand`: classes at their places, one behind the other.

## Main statements

* `lays_readBody`, `parse_classes`: what each statement keeps, a body keeps; what each class keeps,
  a file.
* `lays_readClass`: a class stands where it was read.
* `parse_placed`: the declarations of a source stand where they say, and so do its faults.
-/

namespace PhpHandbook.Declaration

open Source (Span Token byteLength tokenize)

/-- **A class at its place**: its names and comments are what their spans cut out, and its span
covers its types and members. -/
structure ClassLike.Stands (source : List Char) (c : ClassLike) : Prop
    extends c.toMembers.Stands source c.span where
  name : c.name.Stands source
  parents : ∀ n ∈ c.parents, n.Stands source
  implements : ∀ n ∈ c.implements, n.Stands source
  backingType : ∀ t ∈ c.backingType, t.StandsIn source c.span
  doc : ∀ d ∈ c.doc, d.Stands source
  lt : c.span.start < c.span.stop
  inside : c.span.Inside ⟨0, byteLength source⟩

/-! ### Bodies of classes -/

section Classes

variable {env : Env} {lo lo' : Nat} {ts : List Item}

/-- **The body of a class**, by induction over its statements.  What reading one of them keeps of
the members so far, and of the offset where the rest begins, the whole body keeps. -/
theorem lays_readBody {P : Nat → Members → Prop} {items : List Item}
    (hstep : ∀ us lo ms, us <:+ items → Laid env lo us → P lo ms →
      Lays env lo (readMember env us) (fun hi m => P hi (ms.add m)) (Fault.Lies env))
    {ms : Members} (ts : List Item) {lo : Nat} (hts : ts <:+ items) (h : Laid env lo ts)
    (hms : P lo ms) :
    Lays env lo (readBody env ms ts) (fun hi r => P hi r.1 ∧ ∀ f ∈ r.2, f.Lies env)
      (Fault.Lies env) := by
  by_cases hend : atBodyEnd ts = true
  · rw [readBody_of_end env ms hend]
    exact lays_done h ⟨hms, by simp⟩
  · have hus := (readMember env ts).suffix
    have hmember := hstep ts lo ms hts h hms
    cases hm : (readMember env ts).outcome with
    | ok member =>
      have hlt := readMember_advances env ts member hm
      obtain ⟨mid, hmid, hrest, hadd⟩ := hmember.gives member hm
      rw [readBody_of_ok env ms hend (Reading.eq_of_outcome hm)]
      exact lays_widen hmid (lays_readBody hstep _ (hus.trans hts) hrest hadd) hus
    | error fault =>
      have hlt := resumeMember_rest_lt env hend hus
      have hsuffix := (resumeMember env (readMember env ts).rest).suffix.trans hus
      rw [readBody_of_error env ms hend (Reading.eq_of_outcome hm)]
      refine lays_widen (Nat.le_refl lo) ?_ hsuffix
      refine (lays_readBody hstep _ (hsuffix.trans hts) (h.suffix hsuffix) hms).map
        fun _ r _ hr => ⟨hr.1, ?_⟩
      exact List.forall_mem_cons.2 ⟨hmember.fails fault hm, hr.2⟩
termination_by ts.length
decreasing_by all_goals omega

/-- The members of a class stand behind its header. -/
theorem lays_readBody_stands (h : Laid env lo ts) :
    Lays env lo (readBody env {} ts)
      (fun hi r => (lo ≤ hi ∧ r.1.Stands env.source ⟨lo, hi⟩) ∧ ∀ f ∈ r.2, f.Lies env)
      (Fault.Lies env) := by
  have hstep : ∀ us mid (ms : Members), us <:+ ts → Laid env mid us →
      lo ≤ mid ∧ ms.Stands env.source ⟨lo, mid⟩ → Lays env mid (readMember env us)
        (fun hi m => lo ≤ hi ∧ (ms.add m).Stands env.source ⟨lo, hi⟩) (Fault.Lies env) := by
    intro us mid ms _ hus ⟨hle, hms⟩
    refine (lays_readMember hus).imp fun hi m hhi hm => ⟨hle.trans hhi, ?_⟩
    exact (hms.widen fun x hx => hx.widen (Nat.le_refl _) hhi).add
      (hm.widen fun x hx => hx.widen hle (Nat.le_refl _))
  exact lays_readBody (P := fun hi ms => lo ≤ hi ∧ ms.Stands env.source ⟨lo, hi⟩) hstep ts
    List.suffix_rfl h ⟨Nat.le_refl _, Members.stands_empty _ _⟩

theorem lays_readClassModifiers (m : ClassModifiers) (h : Laid env lo ts) :
    Lays env lo (readClassModifiers m ts) (fun _ _ => True) (Fault.Lies env) := by
  induction ts generalizing lo m with
  | nil => exact lays_done h trivial
  | cons t us ih =>
    rw [readClassModifiers]
    split
    · exact lays_behind h.1 (ih _ h.2)
    · exact lays_behind h.1 (ih _ h.2)
    · exact lays_behind h.1 (ih _ h.2)
    · exact lays_done h trivial

theorem lays_readNamesAfter {word : Source.Keyword} (h : Laid env lo ts) :
    Lays env lo (readNamesAfter env word ts) (fun _ names => ∀ n ∈ names, n.Stands env.source)
      (Fault.Lies env) :=
  lays_onNext h (fun _ _ _ _ _ _ hus => (lays_readNames hus).imp fun _ _ _ hnames n hn =>
    (hnames n hn).1)
    (lays_done h (by simp))

/-- What a header gives: the names and types of the class, and the span of its first token. -/
structure HeaderStands (env : Env) (lo hi : Nat) (c : ClassLike) : Prop where
  name : c.name.Stands env.source
  parents : ∀ n ∈ c.parents, n.Stands env.source
  implements : ∀ n ∈ c.implements, n.Stands env.source
  backingType : ∀ t ∈ c.backingType, t.StandsIn env.source ⟨c.span.start, hi⟩
  doc : ∀ d ∈ c.doc, d.Stands env.source
  inside : c.span.Inside ⟨lo, hi⟩

theorem lays_readHeader (h : Laid env lo ts) :
    Lays env lo (readHeader env ts) (HeaderStands env lo) (Fault.Lies env) := by
  rw [readHeader]
  refine (lays_skipAttributes ts h).andThen fun _ us _ _ hus' _ hus _ => ?_
  have hstart := h.heads.suffix h hus'
  have hdoc := h.firstDocs_stand hus
  refine (lays_readClassModifiers _ hus).andThen fun modifiers vs _ _ hvs' _ hvs _ => ?_
  have hstart := hstart.suffix hus hvs'
  have hdoc := hvs.firstDoc_stands hdoc
  have hkind : Lays env _ (readClassKind env vs)
      (fun mid _ => (env.current ts).span.Inside ⟨lo, mid⟩) (Fault.Lies env) :=
    (lays_expect hvs (hvs.unexpected_lies _)).map fun _ _ _ ht =>
      ⟨h.current.start_le, h.current.le, (hstart.taken ht.1).2⟩
  refine hkind.andThen fun kind ws _ mid _ _ hws hbefore => ?_
  refine (lays_readIdent hws).andThen fun name xs _ mid₁ _ hmid₁ hxs hname => ?_
  have hbacking : Lays env mid₁ (if kind = .enum then readReturnHint env xs else .done none)
      (fun hi o => ∀ t ∈ o, t.StandsIn env.source ⟨mid₁, hi⟩) (Fault.Lies env) := by
    split
    · exact lays_readReturnHint hxs
    · exact lays_done hxs (by simp)
  refine hbacking.andThen fun backingType ys _ mid₂ _ hmid₂ hys htype => ?_
  refine (lays_readNamesAfter hys).andThen fun parents zs _ mid₃ _ hmid₃ hzs hparents => ?_
  refine (lays_readNamesAfter hzs).andThen
    fun implements as _ mid₄ _ hmid₄ has himplements => ?_
  refine (lays_expectMark has _).map fun hi _ hhi _ => ?_
  have hle : mid₂ ≤ hi := hmid₃.trans (hmid₄.trans hhi)
  refine ⟨hname.1, hparents, himplements, fun t ht => (htype t ht).widen ?_ hle, hdoc, ?_⟩
  · exact hbefore.le.trans (hbefore.stop_le.trans hmid₁)
  · exact hbefore.widen (Nat.le_refl _) (hmid₁.trans (hmid₂.trans hle))

/-- A class that is read, with the faults of its members. -/
structure ClassRead (env : Env) (lo hi : Nat) (r : ClassLike × List Fault) : Prop where
  stands : r.1.Stands env.source
  inside : r.1.span.Inside ⟨lo, hi⟩
  faults : ∀ f ∈ r.2, f.Lies env

/-- **A class stands where it was read**: it covers all that was read of it. -/
theorem lays_readClass (h : Laid env lo ts) :
    Lays env lo (readClass env ts) (ClassRead env lo)
      (fun faults => ∀ f ∈ faults, f.Lies env) := by
  have hone : ∀ f : Fault, f.Lies env → ∀ g ∈ [f], g.Lies env := fun f hf => by
    simpa using hf
  rw [readClass]
  refine ((lays_readHeader h).mapError hone).andThen fun header us _ mid _ _ hus hheader => ?_
  refine ((lays_readBody_stands hus).mapError hone).andThen fun r vs _ mid' _ hmid hvs hr => ?_
  have hmore : ∀ f : Fault, f.Lies env → ∀ g ∈ r.2 ++ [f], g.Lies env := fun f hf =>
    List.forall_mem_append.2 ⟨hr.2, hone f hf⟩
  refine ((lays_expectMark hvs _).mapError hmore).map fun hi _ _ hclosing => ?_
  obtain ⟨closing, hclosing, rfl⟩ := hclosing
  have hheaderIn := hheader.inside.widen (Nat.le_refl lo) hmid
  have hspan := hheaderIn.merge_eq hclosing.inside
  have hinside := hheaderIn.merge hclosing.inside
  have hmid' : mid' ≤ closing.token.span.stop :=
    hclosing.inside.start_le.trans hclosing.inside.le
  refine ⟨⟨?_, hheader.name, hheader.parents, hheader.implements, ?_, hheader.doc, ?_, ?_⟩,
    hinside, hr.2⟩
  · exact hr.1.2.widen fun x hx => hx.between hheader.inside hclosing.inside
  · show ∀ t ∈ header.backingType, t.StandsIn env.source (header.span.merge closing.token.span)
    rw [hspan]
    exact fun t ht => (hheader.backingType t ht).widen (Nat.le_refl _) (hmid.trans hmid')
  · show (header.span.merge closing.token.span).start < (header.span.merge closing.token.span).stop
    rw [hspan]
    exact Nat.lt_of_le_of_lt (hheaderIn.le.trans (hheaderIn.stop_le.trans hclosing.stands.token.le))
      hclosing.stands.token.lt
  · exact hinside.widen (Nat.zero_le _)
      (hclosing.stop_eq ▸ hclosing.stands.token.marks.inside.stop_le)

end Classes

/-! ### Statements outside of classes -/

section Statements

variable {env : Env} {lo : Nat} {ts : List Item}

theorem lays_readNamespace (h : Laid env lo ts) (span : Span) :
    Lays env lo (readNamespace env span ts) (fun _ _ => True) (Fault.Lies env) := by
  rw [readNamespace]
  refine Lays.andThen (P := fun _ _ => True) ((lays_take? h).map fun _ _ _ _ => trivial)
    fun name us _ _ _ _ hus _ => ?_
  refine lays_onNext hus (fun _ _ _ _ _ _ hvs => lays_done hvs trivial) ?_
  exact lays_onNext hus (fun _ _ _ _ _ _ hvs => lays_done hvs trivial)
    (lays_fail (hus.faultAt_lies _))

theorem lays_readImportKind (h : Laid env lo ts) (fallback : ImportKind) :
    Lays env lo (readImportKind fallback ts) (fun _ _ => True) (Fault.Lies env) :=
  lays_onNext h (fun _ _ _ _ _ _ hus => lays_done hus trivial)
    (lays_onNext h (fun _ _ _ _ _ _ hus => lays_done hus trivial) (lays_done h trivial))

theorem lays_readAlias (h : Laid env lo ts) (kind : ImportKind) (full : String) (name : Name) :
    Lays env lo (readAlias env kind full name ts) (fun _ _ => True) (Fault.Lies env) :=
  lays_onNext h (fun _ _ _ _ _ _ hus => (lays_readIdent hus).map fun _ _ _ _ => trivial)
    (lays_done h trivial)

theorem lays_readImportGroup (kind : ImportKind) (base : String) (ts : List Item) {lo : Nat}
    (h : Laid env lo ts) :
    Lays env lo (readImportGroup env kind base ts) (fun _ _ => True) (Fault.Lies env) := by
  unfold readImportGroup
  split
  · exact lays_done h trivial
  · refine (lays_readImportKind h kind).andThen fun _ us _ _ _ _ hus _ => ?_
    refine (lays_readName hus).andThen fun _ vs _ _ _ _ hvs _ => ?_
    refine (lays_readAlias hvs _ _ _).andThen fun _ ws _ _ _ _ hws _ => ?_
    refine lays_onNext hws (fun _ xs _ _ _ _ hxs => ?_) (lays_done hws trivial)
    exact (lays_readImportGroup kind base xs hxs).map fun _ _ _ _ => trivial
termination_by ts.length
decreasing_by omega

theorem lays_readImport (h : Laid env lo ts) (kind : ImportKind) :
    Lays env lo (readImport env kind ts) (fun _ _ => True) (Fault.Lies env) := by
  refine (lays_readName h).andThen fun name us _ _ _ _ hus _ => ?_
  refine lays_onNext hus (fun _ vs _ _ _ _ hvs => ?_)
    ((lays_readAlias hus _ _ _).map fun _ _ _ _ => trivial)
  refine (lays_expectMark hvs _).andThen fun _ ws _ _ _ _ hws _ => ?_
  refine (lays_readImportGroup kind _ ws hws).andThen fun _ xs _ _ _ _ hxs _ => ?_
  exact (lays_expectMark hxs _).map fun _ _ _ _ => trivial

theorem lays_readImportList (kind : ImportKind) (ts : List Item) {lo : Nat} (h : Laid env lo ts) :
    Lays env lo (readImportList env kind ts) (fun _ _ => True) (Fault.Lies env) := by
  unfold readImportList
  refine (lays_readImport h kind).andThen fun _ us _ _ _ _ hus _ => ?_
  refine lays_onNext hus (fun _ vs _ _ _ _ hvs => ?_) (lays_done hus trivial)
  exact (lays_readImportList kind vs hvs).map fun _ _ _ _ => trivial
termination_by ts.length
decreasing_by omega

theorem lays_readImports (h : Laid env lo ts) :
    Lays env lo (readImports env ts) (fun _ _ => True) (Fault.Lies env) := by
  refine (lays_readImportKind h _).andThen fun kind us _ _ _ _ hus _ => ?_
  refine (lays_readImportList kind us hus).andThen fun _ vs _ _ _ _ hvs _ => ?_
  exact (lays_expectMark hvs _).map fun _ _ _ _ => trivial

end Statements

/-! ### Files -/

/-- **Statements keep what classes keep** of the classes so far and of the offset where the rest
begins; and their faults lie in the text. -/
theorem statementsKeep_of_lays {P : Nat → List ClassLike → Prop} {items : List Item} {env : Env}
    (hclass : ∀ us lo cs, us <:+ items → Laid env lo us → P lo cs →
      Lays env lo (readClass env us) (fun hi r => P hi (cs ++ [r.1])) fun _ => True) :
    StatementsKeep env (fun us cs => us <:+ items ∧ ∃ lo, Laid env lo us ∧ P lo cs)
      (Fault.Lies env) where
  suffix := fun ⟨hus, lo, hlaid, h⟩ hvs => ⟨hvs.trans hus, lo, hlaid.suffix hvs, h⟩
  addClass := by
    rintro us cs r ⟨hus, lo, hlaid, h⟩ hread
    obtain ⟨hi, -, hrest, hadd⟩ := (hclass us lo cs hus hlaid h).gives r hread
    obtain ⟨_, _, _, hstands⟩ := (lays_readClass hlaid).gives r hread
    exact ⟨⟨(readClass env us).suffix.trans hus, hi, hrest, hadd⟩, hstands.faults⟩
  classFails := fun ⟨_, _, hlaid, _⟩ hread => (lays_readClass hlaid).fails _ hread
  namespaceFails := fun ⟨_, _, hlaid, _⟩ hread => (lays_readNamespace hlaid.2 _).fails _ hread
  importsFail := fun ⟨_, _, hlaid, _⟩ hread => (lays_readImports hlaid.2).fails _ hread
  blockFails := fun ⟨_, _, hlaid, _⟩ hread =>
    have hopening := ⟨Nat.zero_le _, Nat.le_of_lt hlaid.1.token.lt, Nat.le_refl _⟩
    (lays_skipToClose 0 hlaid.2 hopening).fails _ hread

/-- **Classes in the text up to `hi`**: at their places, and one behind the other. -/
structure ClassesStand (env : Env) (hi : Nat) (cs : List ClassLike) : Prop where
  stands : ∀ c ∈ cs, c.Stands env.source ∧ c.span.stop ≤ hi
  ordered : cs.Pairwise fun c c' => c.span.stop ≤ c'.span.start

theorem classesStand_nil (env : Env) (hi : Nat) : ClassesStand env hi [] :=
  ⟨by simp, .nil⟩

/-- A class that is read behind all others. -/
theorem ClassesStand.append {env : Env} {lo hi : Nat} {cs : List ClassLike}
    (h : ClassesStand env lo cs) {r : ClassLike × List Fault} (hr : ClassRead env lo hi r) :
    ClassesStand env hi (cs ++ [r.1]) := by
  have hle : lo ≤ hi := hr.inside.start_le.trans (hr.inside.le.trans hr.inside.stop_le)
  refine ⟨List.forall_mem_append.2 ⟨fun c hc => ?_, ?_⟩, List.pairwise_append.2
    ⟨h.ordered, List.pairwise_singleton _ _, fun c hc c' hc' => ?_⟩⟩
  · exact ⟨(h.stands c hc).1, (h.stands c hc).2.trans hle⟩
  · simpa using ⟨hr.stands, hr.inside.stop_le⟩
  · obtain rfl := List.mem_singleton.1 hc'
    exact (h.stands c hc).2.trans hr.inside.start_le

/-- **A file has what its classes keep** of each other, and the faults reported instead lie in the
source. -/
theorem parse_classes {P : Nat → List ClassLike → Prop} {source : List Char} {items : List Item}
    {eof : Token} {comments : List Comment}
    (hitems : attachComments [] (tokenize source).tokens = items ++ [⟨comments, eof⟩])
    (hlaid : Laid ⟨source, eof⟩ 0 items) (hnil : P 0 [])
    (hclass : ∀ us lo cs, us <:+ items → Laid ⟨source, eof⟩ lo us → P lo cs →
      Lays ⟨source, eof⟩ lo (readClass ⟨source, eof⟩ us) (fun hi r => P hi (cs ++ [r.1]))
        fun _ => True) :
    match (parse source).outcome with
    | .ok file => ∃ hi, P hi file.classes
    | .error faults => ∀ f ∈ faults, f.span.Inside ⟨0, byteLength source⟩ := by
  have hfile := (statementsKeep_of_lays hclass).parse hitems ⟨List.suffix_rfl, 0, hlaid, hnil⟩
  cases hparsed : (parse source).outcome with
  | ok file =>
    rw [hparsed] at hfile
    obtain ⟨us, -, hi, -, h⟩ := hfile
    exact ⟨hi, h⟩
  | error faults =>
    rw [hparsed] at hfile
    exact hfile

/-- **The declarations of a source point back at it.**  Every name, variable and comment of a file
that is read is what its span cuts out of the source, and every native type covers its parts.  A
class covers its members, uses of traits, parameters and types, and a method its parameters; the
classes stand one behind the other.  What is reported instead lies in the source. -/
theorem parse_placed (source : List Char) :
    match (parse source).outcome with
    | .ok file => (∀ c ∈ file.classes, c.Stands source) ∧
        file.classes.Pairwise fun c c' => c.span.stop ≤ c'.span.start
    | .error faults => ∀ f ∈ faults, f.span.Inside ⟨0, byteLength source⟩ := by
  obtain ⟨items, comments, eof, hitems, hlaid⟩ := laid_tokenize source
  have hfile :=
    parse_classes (P := ClassesStand ⟨source, eof⟩) hitems hlaid (classesStand_nil _ _)
    fun us lo cs _ hus hcs => ⟨fun r hr => ?_, fun _ _ => trivial⟩
  · split at hfile
    · obtain ⟨hi, hclasses⟩ := hfile
      exact ⟨fun c hc => (hclasses.stands c hc).1, hclasses.ordered⟩
    · exact hfile
  · obtain ⟨hi, hle, hrest, hread⟩ := (lays_readClass hus).gives r hr
    exact ⟨hi, hle, hrest, hcs.append hread⟩

end PhpHandbook.Declaration
