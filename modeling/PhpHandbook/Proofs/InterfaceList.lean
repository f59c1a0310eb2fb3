import PhpHandbook.Proofs.NameResolution
import PhpHandbook.Proofs.NaturalOrder
import PhpHandbook.Proofs.Origins

/-!
# The interfaces that a class lists

A class lists its interfaces from two sources: tags in its comment, which can give arguments, and
what is declared natively, which cannot.  One list of candidates comes out of both, tags first, and
the first candidate of each name is listed; names are those of the resolved types, without regard to
capital and small letters.  The list is then sorted, with regard to them.

The list is remembered with the numbers that chapters had when it was made.  Up to numbers it is the
list that is made of the candidates as they are resolved anew, and since all references in it lead
to their chapters, the numbers are the same too.

## Main definitions

* `interfaceTags`, `taggedType`: the tags that give interfaces, and what they are resolved to.
* `sameListing`: whether two types are listed under one name.
* `Lists`: a list of the first candidate of each name.

## Main statements

* `Lists.add`: one more candidate keeps this.
* `Query.ensures_findInterfaces`: the interfaces of a class are a sorted list of its candidates.
* `interfaces_listed`: so are those that any run has answered with.
-/

namespace PhpHandbook.Handbook

open DocBlock (Document TypeTag)
open Hierarchy (declaredInterfaces)
open Registry (ClassEntry lower)

variable {reg : Registry}

/-! ### Names without numbers -/

theorem listName_erase (t : ResolvedType) : listName (erase t) = listName t :=
  ResolvedType.listName_renumber _ t

theorem map_erase_addUnlisted (types : List ResolvedType) (t : ResolvedType) :
    (addUnlisted types t).map erase = addUnlisted (types.map erase) (erase t) :=
  erase_addUnlisted types t

/-! ### Lists of the first of each name -/

/-- Whether two types are listed under the same name. -/
def sameListing (t t' : ResolvedType) : Bool :=
  lower (listName t) == lower (listName t')

/-- **A list of the first candidate of each name.** -/
structure Lists (candidates types : List ResolvedType) : Prop where
  /-- No two types are listed under one name. -/
  distinct : Distinct types
  /-- A listed type is the first candidate of its name. -/
  first : ∀ t ∈ types, candidates.find? (sameListing · t) = some t
  /-- Every candidate has its name listed. -/
  complete : ∀ c ∈ candidates, ∃ t ∈ types, sameListing t c = true

namespace Lists

variable {candidates types : List ResolvedType}

theorem nil : Lists [] [] :=
  ⟨List.nodup_nil, by simp, by simp⟩

/-- **One more candidate** is listed unless its name is. -/
theorem add (h : Lists candidates types) (t : ResolvedType) :
    Lists (candidates ++ [t]) (addUnlisted types t) := by
  have hkept : ∀ t' ∈ types, (candidates ++ [t]).find? (sameListing · t') = some t' :=
    fun t' ht' => by
    rw [List.find?_append, h.first t' ht', Option.some_or]
  refine ⟨h.distinct.addUnlisted t, ?_, ?_⟩
  · unfold addUnlisted
    split
    · exact hkept
    · next hnew =>
      refine List.forall_mem_append.2 ⟨hkept, List.forall_mem_singleton.2 ?_⟩
      -- a candidate of that name would have its name listed
      have hnone : candidates.find? (sameListing · t) = none := by
        refine List.find?_eq_none.2 fun c hc hsame => hnew ?_
        obtain ⟨t', ht', hlisted⟩ := h.complete c hc
        exact List.any_eq_true.2 ⟨t', ht',
          beq_iff_eq.2 ((beq_iff_eq.1 hlisted).trans (beq_iff_eq.1 hsame))⟩
      rw [List.find?_append, hnone, Option.none_or]
      exact List.find?_cons_of_pos (beq_iff_eq.2 rfl)
  · unfold addUnlisted
    split
    · next hlisted =>
      refine List.forall_mem_append.2 ⟨h.complete, List.forall_mem_singleton.2 ?_⟩
      exact List.any_eq_true.1 hlisted
    · refine List.forall_mem_append.2 ⟨fun c hc => ?_, List.forall_mem_singleton.2 ?_⟩
      · obtain ⟨t', ht', hsame⟩ := h.complete c hc
        exact ⟨t', List.mem_append_left _ ht', hsame⟩
      · exact ⟨t, List.mem_append_right _ List.mem_cons_self, beq_iff_eq.2 rfl⟩

/-- The order of the list does not matter. -/
theorem perm {types' : List ResolvedType} (h : Lists candidates types) (hperm : types'.Perm types) :
    Lists candidates types' := by
  refine ⟨(hperm.map _).nodup_iff.2 h.distinct, fun t ht => h.first t (hperm.mem_iff.1 ht), ?_⟩
  intro c hc
  obtain ⟨t, ht, hsame⟩ := h.complete c hc
  exact ⟨t, hperm.mem_iff.2 ht, hsame⟩

theorem sameListing_erase (t t' : ResolvedType) :
    sameListing (erase t) (erase t') = sameListing t t' := by
  rw [sameListing, sameListing, listName_erase, listName_erase]

theorem find?_sameListing_erase (t : ResolvedType) :
    (candidates.map erase).find? (sameListing · (erase t))
      = (candidates.find? (sameListing · t)).map erase := by
  rw [List.find?_map]
  congr 2
  exact funext fun c => sameListing_erase c t

/-- Numbers do not matter where they go with the names. -/
theorem of_erase (h : Lists (candidates.map erase) (types.map erase))
    (hsame : ∀ c ∈ candidates, ∀ t ∈ types, erase c = erase t → c = t) :
    Lists candidates types := by
  refine ⟨?_, fun t ht => ?_, fun c hc => ?_⟩
  · have hnames : (types.map erase).map (fun t => lower (listName t))
        = types.map fun t => lower (listName t) := by
      rw [List.map_map]
      exact List.map_congr_left fun t _ => congrArg lower (listName_erase t)
    rw [Distinct, ← hnames]
    exact h.distinct
  · have hfirst := h.first (erase t) (List.mem_map_of_mem ht)
    rw [find?_sameListing_erase] at hfirst
    obtain ⟨c, hc, herase⟩ := Option.map_eq_some_iff.1 hfirst
    rw [hc, hsame c (List.mem_of_find?_eq_some hc) t ht herase]
  · obtain ⟨t', ht', hlisted⟩ := h.complete (erase c) (List.mem_map_of_mem hc)
    obtain ⟨t, ht, rfl⟩ := List.mem_map.1 ht'
    exact ⟨t, ht, (sameListing_erase t c).symm.trans hlisted⟩

/-- The name of every candidate is listed once. -/
theorem countP_eq_one (h : Lists candidates types) {c : ResolvedType} (hc : c ∈ candidates) :
    types.countP (sameListing · c) = 1 := by
  obtain ⟨t, ht, hsame⟩ := h.complete c hc
  have hcount : (types.map fun t => lower (listName t)).count (lower (listName c)) = 1 := by
    refine List.count_eq_one_of_mem h.distinct (List.mem_map.2 ⟨t, ht, ?_⟩)
    exact beq_iff_eq.1 hsame
  rw [List.count, List.countP_map] at hcount
  exact hcount

end Lists

/-! ### The candidates of a class -/

/-- The document of a class. -/
def classDocument (e : ClassEntry) : Document :=
  documentOf (e.decl.doc.map (·.text))

/-- **The tags that give interfaces**: those for implemented interfaces and, on an interface, the
one for what it extends. -/
def interfaceTags (e : ClassEntry) : List TypeTag :=
  (classDocument e).implementing ++
    if e.kind = .interface then (classDocument e).extending.value.toList else []

/-- The type in a tag of a class, resolved where the templates of the class are bound. -/
def taggedType (e : reg.Entry) (tag : TypeTag) : Query reg ResolvedType := do
  let r ← gathered (resolverWith e (classDocument e.1).templateNames)
  r.resolve none tag.type

/-- The type in a tag of a class, without numbers. -/
def plainType (e : reg.Entry) (tag : TypeTag) : Except ResolveError ResolvedType :=
  erase ((taggedType e tag).run.run {}).1

/-- The resolver of a chapter in every sound run. -/
theorem Gather.gives_resolver {contents : Contents reg} {c : Chapter reg}
    (hc : contents.get? c.id = some c) :
    Gather.Gives contents c.resolver
      (.ofEntry c.entry (classDocument c.entry.1).templateNames) :=
  (Gather.gives_doc hc).bind (Gather.gives_resolverWith c.entry _)

/-- A query with a known answer ensures that answer. -/
theorem Gather.ensures_of_gives {α : Type} {before : Contents reg} {q : Gather reg α} {a : α}
    (h : ∀ contents, before ≤ contents → Gather.Gives contents q a) :
    Gather.Ensures before q fun _ b => b = a := by
  intro run hrun hbefore
  obtain ⟨hanswer, hsound, hcontents⟩ := h run.contents hbefore run hrun rfl
  exact ⟨hsound, hcontents.ge, hanswer⟩

namespace Query

variable {before : Contents reg}

theorem agree_taggedType {w : Tables reg} (e : reg.Entry) (tag : TypeTag) :
    Query.Agree w (taggedType e tag) (taggedType e tag) :=
  (Query.Agree.gathered (Gather.agree_resolverWith e _)).bind_eq fun w' _ r =>
    agree_resolve r none w' tag.type

/-- **The type in a tag** is the same in every sound run, up to numbers. -/
theorem erase_taggedType {run : Run reg} (h : run.Sound) (e : reg.Entry) (tag : TypeTag) :
    erase ((taggedType e tag).run.run run).1 = plainType e tag := by
  obtain ⟨-, -, -, hmatch⟩ :=
    agree_taggedType e tag run {} h Run.sound_empty (le_refl (tablesOf run {}))
  exact hmatch.erase_eq

theorem ensures_resolve (e : reg.Entry) (tag : TypeTag) :
    Ensures before
      ((Resolver.ofEntry e (classDocument e.1).templateNames).resolve none tag.type)
      fun t => plainType e tag = .ok (erase t) := by
  intro run hrun hbefore
  obtain ⟨hresolver, hsound₀, -⟩ :=
    Gather.gives_resolverWith e (classDocument e.1).templateNames {} Run.sound_empty rfl
  obtain ⟨hsound, -, hle, hmatch⟩ := agree_resolve
    (Resolver.ofEntry e (classDocument e.1).templateNames) none _ tag.type run _ hrun hsound₀
    (le_refl (tablesOf run _))
  refine ⟨hsound, hle.1, fun t ht => ?_⟩
  -- what the tag is resolved to at first is resolved in the run that has made the resolver
  have hfirst : plainType e tag
      = erase (((Resolver.ofEntry e (classDocument e.1).templateNames).resolve none
          tag.type).run.run ((resolverWith e (classDocument e.1).templateNames).run {}).2).1 := by
    rw [← hresolver]
    rfl
  rw [hfirst, ← hmatch.erase_eq, ht]
  rfl

/-- **A fold** ensures what every step keeps. -/
theorem ensures_foldlM {ι α : Type} {step : α → ι → Query reg α}
    {P : List ι → α → Prop}
    (hstep : ∀ contents, before ≤ contents → ∀ done x a, P done a →
      Ensures contents (step a x) (P (done ++ [x]))) (xs : List ι) {a : α} (ha : P [] a) :
    Ensures before (xs.foldlM step a) (P xs) := by
  suffices h : ∀ (done : List ι) (contents : Contents reg), before ≤ contents →
      ∀ a, P done a → Ensures contents (xs.foldlM step a) (P (done ++ xs)) from
    h [] before (le_refl _) a ha
  induction xs with
  | nil =>
    intro done contents _ a ha
    rw [List.append_nil]
    exact ensures_pure ha
  | cons x xs ih =>
    intro done contents hle a ha
    rw [List.foldlM_cons]
    refine (hstep contents hle done x a ha).bind fun contents' hle' b hb => ?_
    have hrest := ih (done ++ [x]) contents' (hle.trans hle') b hb
    rwa [List.append_assoc, List.singleton_append] at hrest

end Query

/-- **A list of the interfaces of a class**, without numbers: it lists what tags and declaration
give and is in natural order. -/
def ListsInterfaces (e : reg.Entry) (types : List ResolvedType) : Prop :=
  ∃ written : List ResolvedType,
    (interfaceTags e.1).map (plainType e) = written.map .ok ∧
      Lists (written ++ (declaredInterfaces e.1).map (plainReference reg)) types ∧
      types.Pairwise fun a b => Text.naturalLE (listName a) (listName b) = true

/-- After some tags, the first candidate of each name is listed. -/
def TagsListed (e : reg.Entry) (done : List TypeTag) (types : List ResolvedType) : Prop :=
  ∃ written : List ResolvedType,
    done.map (plainType e) = written.map .ok ∧ Lists written (types.map erase)

/-- One more tag. -/
theorem TagsListed.add {e : reg.Entry} {done : List TypeTag} {types : List ResolvedType}
    (h : TagsListed e done types) {tag : TypeTag} {t : ResolvedType}
    (ht : plainType e tag = .ok (erase t)) :
    TagsListed e (done ++ [tag]) (addUnlisted types t) := by
  obtain ⟨written, hwritten, hlists⟩ := h
  refine ⟨written ++ [erase t], ?_, ?_⟩
  · rw [List.map_append, List.map_append, hwritten, List.map_singleton, ht, List.map_singleton]
  · rw [map_erase_addUnlisted]
    exact hlists.add (erase t)

namespace Query

variable {before : Contents reg}

theorem ensures_written (e : reg.Entry) (tags : List TypeTag) :
    Ensures before
      (tags.foldlM (fun types tag => do
        let type ← (Resolver.ofEntry e (classDocument e.1).templateNames).resolve none tag.type
        pure (addUnlisted types type)) [])
      (TagsListed e tags) :=
  ensures_foldlM (P := TagsListed e)
    (fun _ _ _ tag _ htypes =>
      (ensures_resolve e tag).bind fun _ _ _ ht => ensures_pure (htypes.add ht))
    tags ⟨[], rfl, .nil⟩

theorem ensures_declared (names : List String) {candidates types : List ResolvedType}
    (h : Lists candidates (types.map erase)) :
    Ensures before
      (names.foldlM (fun types name => do
        let type ← gathered (reference name [])
        pure (addUnlisted types type)) types)
      fun types : List ResolvedType =>
        Lists (candidates ++ names.map (plainReference reg)) (types.map erase) := by
  refine ensures_foldlM
    (P := fun done (types : List ResolvedType) =>
      Lists (candidates ++ done.map (plainReference reg)) (types.map erase))
    (fun _ _ done name types htypes => ?_) names (by simpa using h)
  refine (ensures_reference name).bind fun _ _ t ht => ensures_pure ?_
  rw [map_erase_addUnlisted, ht, List.map_append, ← List.append_assoc]
  exact htypes.add _

/-- **What is worked out** lists the first candidate of each name: one step of the two loops adds
one candidate. -/
theorem ensures_findInterfaces {c : Chapter reg} (hc : before.get? c.id = some c) :
    Ensures before c.findInterfaces fun types => ListsInterfaces c.entry (types.map erase) := by
  unfold Chapter.findInterfaces
  refine ensures_gathered_bind (Gather.ensures_of_gives fun _ hle =>
    Gather.gives_doc (Contents.get?_mono hle hc)) fun contents hle doc hdoc => ?_
  refine ensures_gathered_bind (Gather.ensures_of_gives fun _ hle' =>
    Gather.gives_resolver (Contents.get?_mono (hle.trans hle') hc)) fun _ _ r hr => ?_
  have htags : (doc.implementing ++
      if c.entry.1.kind = .interface then doc.extending.value.toList else [])
        = interfaceTags c.entry.1 := by
    have hdoc' : doc = classDocument c.entry.1 := hdoc
    rw [hdoc', interfaceTags]
  rw [hr]
  show Ensures _ (List.foldlM _ [] (doc.implementing ++ _) >>= _) _
  rw [htags]
  refine (ensures_written c.entry _).bind fun _ _ types ⟨written, hwritten, hlists⟩ => ?_
  refine (ensures_declared (declaredInterfaces c.entry.1) hlists).bind fun _ _ types htypes => ?_
  refine ensures_pure ⟨written, hwritten, ?_, ?_⟩
  · exact htypes.perm ((Text.sortNaturalBy_perm listName types).map erase)
  · refine List.pairwise_map.2 ((Text.pairwise_sortNaturalBy listName types).imp fun h => ?_)
    rwa [listName_erase, listName_erase]

end Query

/-! ### Lists in a run -/

/-- The interfaces in an answer are a list of what tags and declaration give. -/
theorem listsInterfaces_of_mem_log (rules : Links) (toHtml : String → String)
    (asked : List (Inquiry reg)) {e : reg.Entry} {types : List ResolvedType}
    (h : ⟨.facet e .interfaces, .ok types⟩ ∈ ((serve rules toHtml asked).run {}).1) :
    ListsInterfaces e (types.map erase) :=
  Query.holds_of_mem_log rules toHtml asked .interfaces
    (P := fun e types => ListsInterfaces e (List.map erase types))
    (Query.ensures_facet .interfaces Chapter.findInterfaces (fun _ => rfl)
      Query.agree_findInterfaces
      (P := fun e types => ListsInterfaces e (List.map erase types))
      (fun e a b herase ha => by rwa [← show List.map erase a = List.map erase b from herase])
      fun _ _ => Query.ensures_findInterfaces) h

/-- What is answered anew in a sound run leads to its chapters, also where these have been opened
for it. -/
def ValidAfter (contents : Contents reg) (t : ResolvedType) : Prop :=
  ∃ after : Contents reg, after.Sound ∧ contents ≤ after ∧ Valid after t

theorem ValidAfter.eq_of_erase_eq {contents : Contents reg} {t t' : ResolvedType}
    (h : ValidAfter contents t) (ht' : Valid contents t') (herase : erase t = erase t') :
    t = t' := by
  obtain ⟨after, hsound, hle, ht⟩ := h
  exact ht.eq_of_erase_eq hsound (ht'.mono hle) herase

/-- **The tags of a class anew**: they are resolved to the same types as at first. -/
theorem exists_written {run : Run reg} (h : run.Sound) (e : reg.Entry) (tags : List TypeTag)
    {plain : List ResolvedType} (hplain : tags.map (plainType e) = plain.map .ok) :
    ∃ written : List ResolvedType,
      tags.map (fun tag => ((taggedType e tag).run.run run).1) = written.map .ok ∧
        written.map erase = plain ∧ ∀ t ∈ written, ValidAfter run.contents t := by
  induction tags generalizing plain with
  | nil =>
    obtain rfl : plain = [] := List.map_eq_nil_iff.1 hplain.symm
    exact ⟨[], rfl, rfl, by simp⟩
  | cons tag tags ih =>
    obtain ⟨w, ws, rfl, hw, hws⟩ := List.map_eq_cons_iff.1 hplain.symm
    obtain ⟨written, hwritten, hnames, hvalid⟩ := ih hws.symm
    obtain ⟨hsound, -, hle, hmatch⟩ :=
      Query.agree_taggedType e tag run run h h (le_refl (tablesOf run run))
    have htype := Query.erase_taggedType h e tag
    have hleft := hmatch.left
    rw [← hw] at htype
    cases hanswer : ((taggedType e tag).run.run run).1 with
    | error error =>
      rw [hanswer] at htype
      cases htype
    | ok t =>
      rw [hanswer] at htype hleft
      refine ⟨t :: written, ?_, ?_,
        List.forall_mem_cons.2 ⟨⟨_, hsound.contents, hle.1, hleft⟩, hvalid⟩⟩
      · rw [List.map_cons, List.map_cons, hanswer, hwritten]
      · rw [List.map_cons, hnames]
        exact congrArg (· :: ws) (Except.ok.inj htype)

theorem erase_reference {run : Run reg} (h : run.Sound) (name : String) :
    erase ((reference name []).run run).1 = plainReference reg name ∧
      ValidAfter run.contents ((reference name []).run run).1 := by
  obtain ⟨hsound, -, hle, hmatch⟩ :=
    Gather.agree_reference name .nil run run h h (le_refl (tablesOf run run))
  exact ⟨(Query.ensures_reference name run h (le_refl _)).2.2 _ rfl,
    _, hsound.contents, hle.1, hmatch.left⟩

/-- **The interfaces that a class lists.**  After any sequence of inquiries, let a class have been
asked for its interfaces and have answered with a list.  Every tag of its comment that gives an
interface is resolved to a type, and every interface that is declared natively to a reference
without arguments.  The names in the list are pairwise different, without regard to capital and
small letters, and in natural order.  The name of each of these types and references is in the list
once, and nothing else is: each member is the type from the first tag of that name, with the same
numbers, or the reference if there is no such tag. -/
theorem interfaces_listed (rules : Links) (toHtml : String → String) (asked : List (Inquiry reg))
    {e : reg.Entry} {types : List ResolvedType}
    (h : ⟨.facet e .interfaces, .ok types⟩ ∈ ((serve rules toHtml asked).run {}).1) :
    let final := ((serve rules toHtml asked).run {}).2
    ∃ written : List ResolvedType,
      (interfaceTags e.1).map (fun tag => ((taggedType e tag).run.run final).1)
        = written.map .ok ∧
      let declared := (declaredInterfaces e.1).map fun name => ((reference name []).run final).1
      (types.map fun t => lower (listName t)).Nodup ∧
      types.Pairwise (fun a b => Text.naturalLE (listName a) (listName b) = true) ∧
      (∀ t ∈ written ++ declared, types.countP (sameListing · t) = 1) ∧
      ∀ t ∈ types,
        (written.find? (sameListing · t)).or (declared.find? (sameListing · t)) = some t := by
  intro final
  obtain ⟨hsound, -, hlog⟩ := serve_spec rules toHtml asked Run.sound_empty
  obtain ⟨plain, htags, hlists, hsorted⟩ := listsInterfaces_of_mem_log rules toHtml asked h
  obtain ⟨written, hwritten, hplain, hvalid⟩ := exists_written hsound e _ htags
  refine ⟨written, hwritten, ?_⟩
  intro declared
  have hdeclared : declared.map erase = (declaredInterfaces e.1).map (plainReference reg) := by
    rw [List.map_map]
    exact List.map_congr_left fun name _ => (erase_reference hsound name).1
  have hcandidates : ∀ c ∈ written ++ declared, ValidAfter final.contents c := by
    refine List.forall_mem_append.2 ⟨hvalid, List.forall_mem_map.2 fun name _ => ?_⟩
    exact (erase_reference hsound name).2
  have hlisted : ∀ t ∈ types, Valid final.contents t := fun t ht l hl =>
    (hlog _ h).valid l (List.mem_flatMap.2 ⟨t, ht, hl⟩)
  have hall : Lists (written ++ declared) types := by
    refine .of_erase ?_ fun c hc t ht herase =>
      (hcandidates c hc).eq_of_erase_eq (hlisted t ht) herase
    rwa [List.map_append, hplain, hdeclared]
  refine ⟨hall.distinct, ?_, fun t ht => hall.countP_eq_one ht, fun t ht => ?_⟩
  · refine (List.pairwise_map.1 hsorted).imp fun h => ?_
    rwa [listName_erase, listName_erase] at h
  · rw [← List.find?_append]
    exact hall.first t ht

/-- A class that implements two interfaces, of which its comment gives arguments for the second
one. -/
def parcel : ClassEntry :=
  let e := Hierarchy.sketch .plainClass "Parcel" [] [] ["I2", "I10"] []
  { e with decl := { e.decl with doc := some ⟨"/** @implements I10<I2> */", ⟨0, 0⟩⟩ } }

/-- A registry with that class and its interfaces. -/
def post : Registry where
  entries := [parcel, Hierarchy.sketch .interface "I2" [] [] [] [],
    Hierarchy.sketch .interface "I10" [] [] [] []]
  distinct := by decide +kernel
  formed := by decide +kernel

/-- The class in that registry. -/
def postParcel : post.Entry :=
  ⟨parcel, by simp [post]⟩

/-- The class lists its interfaces in natural order, and the one in its comment once. -/
theorem interfaces_listed_parcel :
    ∃ types : List ResolvedType,
      ⟨.facet postParcel .interfaces, .ok types⟩
        ∈ ((serve {} Markdown.toHtml [.facet postParcel .interfaces]).run {}).1 ∧
        types.Pairwise (fun a b => Text.naturalLE (listName a) (listName b) = true) ∧
        ∃ written : List ResolvedType, written.length = 1 ∧
          ∀ t ∈ written, types.countP (sameListing · t) = 1 := by
  have hlog : ((serve {} Markdown.toHtml [.facet postParcel .interfaces]).run {}).1
      = [⟨.facet postParcel .interfaces, firstAnswer postParcel .interfaces⟩] := rfl
  have hanswered : (firstAnswer postParcel .interfaces).toOption.isSome = true := by decide +kernel
  cases hanswer : firstAnswer postParcel .interfaces with
  | error error =>
    rw [hanswer] at hanswered
    cases hanswered
  | ok types =>
    have hmem : ⟨.facet postParcel .interfaces, .ok types⟩
        ∈ ((serve {} Markdown.toHtml [.facet postParcel .interfaces]).run {}).1 := by
      rw [hlog, hanswer]
      exact List.mem_singleton_self _
    obtain ⟨written, htags, -, hsorted, honce, -⟩ :=
      interfaces_listed {} Markdown.toHtml [.facet postParcel .interfaces] hmem
    have hlength : (interfaceTags postParcel.1).length = 1 := by decide +kernel
    refine ⟨types, hmem, hsorted, written, ?_, fun t ht => honce t (List.mem_append_left _ ht)⟩
    rw [← hlength, ← List.length_map (f := Except.ok), ← htags, List.length_map]

end PhpHandbook.Handbook
