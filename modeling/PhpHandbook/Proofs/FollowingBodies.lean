import PhpHandbook.Proofs.FollowingValues

/-!
# Methods and classes side by side

Readers of members and classes pass the places where two texts differ, when these are the bodies of
methods or stand behind names that have a value.  A block is passed as a whole, so it does not
matter what it holds.  What belongs to a class has been passed when it was read, and what belongs to
nothing that was read is still ahead.

## Main statements

* `skipBlock_past`: passing over a block that differs.
* `readMember_past`, `readClass_past`: members and classes are the same.
-/

namespace PhpHandbook.Declaration

open Source (Span TokenKind)

variable {env₁ env₂ : Env} {marks : List Nat}

/-! ### Methods -/

/-- The offset where the block at the end of a method stops. -/
def endStops (a : Bool × Span) : List Nat :=
  if a.1 then [a.2.stop] else []

/-- **A block may differ** when it is the one that is passed. -/
theorem skipBlock_past {ts₁ ts₂ : List Item} (h : Aligned env₁ env₂ marks ts₁ ts₂)
    (hnext : next (isMark .braceOpen) ts₁ = true) :
    FollowsPast env₁ env₂ marks (fun span => [span.stop]) (skipBlock env₁ ts₁)
      (skipBlock env₂ ts₂) := by
  rcases h.cases with ⟨-, rfl, rfl⟩ | ⟨t₁, us₁, t₂, us₂, rfl, rfl, hsame, hus⟩ |
    ⟨t₁, c₁, body₁, us₁, t₂, c₂, body₂, us₂, mark, marks', hm⟩
  · cases hnext
  · -- this block is the same in both texts, and those that differ are behind it
    have ht₁ : isMark .braceOpen t₁ = true := hnext
    have ht₂ : isMark .braceOpen t₂ = true :=
      byKind_isMark .braceOpen t₁ t₂ hsame.kind_eq ▸ ht₁
    rw [skipBlock_of_open env₁ ht₁, skipBlock_of_open env₂ ht₂]
    intro span hspan hmarks
    have hpassed := skipToClose_gives h.ordered ht₁ span hspan
    have hahead : ∀ e ∈ marks, Ahead (skipToClose t₁.token.span 0 us₁).rest e := by
      intro e he
      rcases hmarks e he with hin | hahead
      · obtain rfl := List.mem_singleton.1 hin
        exact absurd (hus.marks_ahead _ he) hpassed.not_within
      · exact hahead
    obtain ⟨span₂, hspan₂, hsame, hrest⟩ :=
      skipToClose_follows hus _ t₂.token.span 0 span hspan hahead
    exact ⟨span₂, marks, hspan₂, hsame, List.Subset.refl _, hrest⟩
  · obtain ⟨rfl, rfl, rfl, hsame, hdiffer, hus, -⟩ := hm
    have ht₁ : isMark .braceOpen t₁ = true := hnext
    have ht₂ : isMark .braceOpen t₂ = true :=
      byKind_isMark .braceOpen t₁ t₂ hsame.kind_eq ▸ ht₁
    obtain ⟨hb₁, hb₂, hc₁, hc₂⟩ := hdiffer.of_open ht₁
    obtain ⟨-, hrest₁⟩ :=
      @skipToClose_of_count t₁.token.span 0 body₁ us₁ c₁ hb₁.braces hc₁
    obtain ⟨hspan₂, hrest₂⟩ :=
      @skipToClose_of_count t₂.token.span 0 body₂ us₂ c₂ hb₂.braces hc₂
    rw [skipBlock_of_open env₁ ht₁, skipBlock_of_open env₂ ht₂]
    refine fun span _ _ => ⟨_, marks', hspan₂, Same.span _ _, List.subset_cons_self _ _, ?_⟩
    show Aligned env₁ env₂ marks'
      (skipToClose t₁.token.span 0 (body₁ ++ c₁ :: us₁)).rest
      (skipToClose t₂.token.span 0 (body₂ ++ c₂ :: us₂)).rest
    rwa [hrest₁, hrest₂]

theorem readMethodEnd_past {ts₁ ts₂ : List Item} (h : Aligned env₁ env₂ marks ts₁ ts₂) :
    FollowsPast env₁ env₂ marks endStops (readMethodEnd env₁ ts₁)
      (readMethodEnd env₂ ts₂) := by
  rw [readMethodEnd, readMethodEnd, ← h.next_eq (byKind_isMark .braceOpen)]
  split
  · next hnext =>
    refine (skipBlock_past h hnext).map (fun _ _ _ _ he => he) fun _ _ _ => ?_
    exact Same.prod (Same.refl _) (Same.span _ _)
  · refine (expectMark_follows h .semicolon).mapError.map_past (fun _ _ _ => List.not_mem_nil)
      fun _ _ _ => ?_
    exact Same.prod (Same.refl _) (Same.span _ _)

theorem readMethodFront_follows {ts₁ ts₂ : List Item}
    (h : Aligned env₁ env₂ marks ts₁ ts₂) :
    Follows env₁ env₂ marks (readMethodFront env₁ ts₁) (readMethodFront env₂ ts₂) := by
  refine (expectKeyword_follows h .kwFunction).andThen fun _ us₁ _ _ us₂ _ _ hus => ?_
  refine (skipMark_follows hus .ampersand).andThen fun _ us₁ _ _ us₂ _ hreference hus => ?_
  exact (readMemberName_follows hus).map fun _ _ hname => hreference.prod hname

theorem readSignature_past {ts₁ ts₂ : List Item} (h : Aligned env₁ env₂ marks ts₁ ts₂) :
    FollowsPast env₁ env₂ marks signatureStops (readSignature env₁ ts₁)
      (readSignature env₂ ts₂) := by
  refine (readMethodFront_follows h).andThen_past (fun front us _ hus => ?_)
    fun front₁ us₁ _ front₂ us₂ _ hfront _ hus => ?_
  · exact readMethodTypes_gives env₁ front (h.ordered.suffix hus)
  · refine (readParams_past hus).andThen (readParams_gives env₁ hus.ordered)
      (fun _ _ _ _ => Gives.map fun _ _ _ he => .inl he)
      fun ps₁ vs₁ _ ps₂ vs₂ _ marks' hparams _ hfresh hvs => ?_
    exact (readReturnHint_follows hvs).map_past (fun _ => hfresh) fun _ _ htype =>
      hfront.fst.prod (hfront.snd.prod (hparams.prod htype))

theorem readEndOf_past {ts₁ ts₂ : List Item} (h : Aligned env₁ env₂ marks ts₁ ts₂)
    (modifiers : Modifiers) {doc₁ doc₂ : Option Comment} (hdoc : Same doc₁ doc₂)
    {start₁ start₂ : Span} (hstart : Leads start₁ ts₁)
    {sig₁ sig₂ : Bool × Ident × List Param × Option TypeHint} (hsig : Same sig₁ sig₂)
    (hfresh : ∀ e ∈ marks, e ∉ signatureStops sig₁) :
    FollowsPast env₁ env₂ marks Method.ownStops
      (readEndOf env₁ modifiers doc₁ start₁ sig₁ ts₁)
      (readEndOf env₂ modifiers doc₂ start₂ sig₂ ts₂) := by
  refine (readMethodEnd_past h).map (fun a ha e he hin => ?_) fun a₁ a₂ ha => ?_
  · have hbody := (List.mem_append.1 hin).resolve_left (hfresh e he)
    obtain ⟨hasBody, stop⟩ := a
    cases hasBody with
    | false => cases hbody
    | true =>
      obtain ⟨t, us, rfl, hpassed⟩ := readMethodEnd_gives env₁ h.ordered _ ha rfl
      obtain rfl := List.mem_singleton.1 hbody
      rw [hstart.merge_stop hpassed]
      exact List.mem_singleton_self _
  · exact Same.method hsig.snd.fst rfl hsig.snd.snd.fst hsig.snd.snd.snd hsig.fst ha.fst hdoc

theorem readMethod_past {ts₁ ts₂ : List Item} (h : Aligned env₁ env₂ marks ts₁ ts₂)
    (modifiers : Modifiers) {doc₁ doc₂ : Option Comment} (hdoc : Same doc₁ doc₂)
    {start₁ start₂ : Span} (hstart : Leads start₁ ts₁) :
    FollowsPast env₁ env₂ marks Method.ownStops
      (readMethod env₁ modifiers doc₁ start₁ ts₁)
      (readMethod env₂ modifiers doc₂ start₂ ts₂) := by
  rw [readMethod_eq, readMethod_eq]
  refine (readSignature_past h).andThen (readSignature_gives env₁ h.ordered)
    (fun sig us _ hus => ?_)
    fun sig₁ us₁ _ sig₂ us₂ _ marks' hsig hsuffix hfresh hus => ?_
  · exact readEndOf_ownStops env₁ modifiers doc₁ sig (h.ordered.suffix hus) (hstart.suffix hus)
  · exact readEndOf_past hus modifiers hdoc (hstart.suffix hsuffix) hsig hfresh

/-! ### Members -/

/-- A member that only has names follows past what they mark. -/
theorem FollowsPast.names {α : Type} [Spanned α] {ts₁ ts₂ : List Item} {r₁ : Read α ts₁}
    {r₂ : Read α ts₂} {names : α → List Ident}
    (h : FollowsPast env₁ env₂ marks (fun a => nameStops (names a)) r₁ r₂)
    {f : α → Member} (hstops : ∀ a, (f a).ownStops = nameStops (names a))
    (hf : ∀ a₁ a₂, Same a₁ a₂ → Same (f a₁) (f a₂)) :
    FollowsPast env₁ env₂ marks Member.ownStops (r₁.map f) (r₂.map f) :=
  h.map (fun a _ _ _ he => hstops a ▸ he) hf

theorem readDeclared_past {ts₁ ts₂ : List Item} (h : Aligned env₁ env₂ marks ts₁ ts₂)
    (modifiers : Modifiers) {doc₁ doc₂ : Option Comment} (hdoc : Same doc₁ doc₂)
    {start₁ start₂ : Span} (hstart : Leads start₁ ts₁) :
    FollowsPast env₁ env₂ marks Member.ownStops
      (readDeclared env₁ modifiers doc₁ start₁ ts₁)
      (readDeclared env₂ modifiers doc₂ start₂ ts₂) := by
  rw [readDeclared, readDeclared, ← h.next_eq (byKind_isKeyword .kwConst),
    ← h.next_eq (byKind_isKeyword .kwFunction)]
  split
  · exact (readConstants_past h modifiers hdoc start₁ start₂).names
      (fun _ => List.append_nil _)
      fun _ _ h => congrArg Member.constants h
  split
  · exact (readMethod_past h modifiers hdoc hstart).map (fun _ _ _ _ he => he)
      fun _ _ h => congrArg Member.method h
  · exact (readProperties_past h modifiers hdoc start₁ start₂).names
      (fun _ => List.append_nil _)
      fun _ _ h => congrArg Member.properties h

theorem readAttributed_past {ts₁ ts₂ : List Item} (h : Aligned env₁ env₂ marks ts₁ ts₂)
    {doc₁ doc₂ : Option Comment} (hdoc : Same doc₁ doc₂) {start₁ start₂ : Span}
    (hstart : Leads start₁ ts₁) :
    FollowsPast env₁ env₂ marks Member.ownStops (readAttributed env₁ doc₁ start₁ ts₁)
      (readAttributed env₂ doc₂ start₂ ts₂) := by
  rw [readAttributed, readAttributed, ← h.next_eq (byKind_isKeyword .kwCase)]
  split
  · exact (readCase_past h hdoc start₁ start₂).names (fun _ => List.append_nil _)
      fun _ _ h => congrArg Member.case h
  · rw [readModified_eq, readModified_eq]
    refine (readModifiers_follows h {}).andThen_past (fun modifiers us _ hus => ?_)
      fun modifiers₁ us₁ _ modifiers₂ us₂ _ hmodifiers hsuffix hus => ?_
    · exact readDeclared_gives env₁ modifiers _ (h.ordered.suffix hus) (hstart.suffix hus)
    · obtain rfl : modifiers₁ = modifiers₂ := hmodifiers
      exact readDeclared_past hus modifiers₁ (hus.firstDoc hdoc) (hstart.suffix hsuffix)

/-- **Members are the same** whatever stands in the places that belong to them. -/
theorem readMember_past {ts₁ ts₂ : List Item} (h : Aligned env₁ env₂ marks ts₁ ts₂) :
    FollowsPast env₁ env₂ marks Member.ownStops (readMember env₁ ts₁)
      (readMember env₂ ts₂) := by
  rw [readMember_eq, readMember_eq, ← h.next_eq (byKind_isKeyword .kwUse)]
  refine followsPast_onMark .semicolon nofun h (fun _ us₁ _ _ us₂ _ _ _ hus => ?_) ?_
  · exact (follows_done hus (Same.refl _)).past (gives_done fun _ _ => nofun)
  split
  · exact (readTraitUse_follows h).map_past (fun _ _ _ => nofun) fun _ _ h =>
      congrArg Member.traitUse h
  · have hstart := leads_current env₁ h.ordered
    refine (skipAttributes_follows h).andThen_past (fun _ us _ hus => ?_)
      fun _ us₁ _ _ us₂ _ _ hsuffix hus => ?_
    · exact readAttributed_gives env₁ _ (h.ordered.suffix hus) (hstart.suffix hus)
    · exact readAttributed_past hus (hus.firstDoc h.docComment?) (hstart.suffix hsuffix)

/-! ### Classes -/

theorem Same.withMembers {c₁ c₂ : ClassLike} (h : Same c₁ c₂) {ms₁ ms₂ : Members}
    (hms : Same ms₁ ms₂) (s t : Span) :
    Same { c₁ with toMembers := ms₁, span := s } { c₂ with toMembers := ms₂, span := t } :=
  Same.classLike hms (h.congr ClassLike.kind) (h.congr ClassLike.name) (h.congr ClassLike.modifiers)
    (h.congr ClassLike.parents) (h.congr ClassLike.implements) (h.congr ClassLike.backingType)
    (h.congr ClassLike.doc)

theorem Same.add {ms₁ ms₂ : Members} {m₁ m₂ : Member} (hms : Same ms₁ ms₂)
    (hm : Same m₁ m₂) :
    Same (ms₁.add m₁) (ms₂.add m₂) := by
  have hadd (ms : Members) (m : Member) :
      Spanned.withoutSpans (ms.add m) = (Spanned.withoutSpans ms).add (Spanned.withoutSpans m) := by
    cases m <;> simp [Members.add, Spanned.withoutSpans]
  rw [Same, hadd, hadd, hms.eq, hm.eq]

/-- A fault of a member stays in the answer. -/
theorem readBody_gives_fault (env : Env) (ms : Members) {ts : List Item} {fault : Fault}
    (hend : ¬atBodyEnd ts = true) (h : (readMember env ts).outcome = .error fault) :
    Gives (readBody env ms ts) fun a _ => a.2 ≠ [] := by
  intro a ha
  rw [readBody_of_error env ms hend (Reading.eq_of_outcome h), Reading.outcome_widen] at ha
  obtain ⟨b, -, rfl⟩ := Reading.outcome_map_eq_ok_iff.1 ha
  exact List.cons_ne_nil fault b.2

/-- **The body of a class** is the same whatever stands in the places that belong to it. -/
theorem readBody_past {marks : List Nat} {ts₁ ts₂ : List Item}
    (h : Aligned env₁ env₂ marks ts₁ ts₂) {ms₁ ms₂ : Members} (hms : Same ms₁ ms₂)
    (hfresh : ∀ e ∈ marks, e ∉ ms₁.ownStops) {a₁ : Members}
    (ha₁ : (readBody env₁ ms₁ ts₁).outcome = .ok (a₁, []))
    (hmarks : ∀ e ∈ marks, e ∈ a₁.ownStops ∨ Ahead (readBody env₁ ms₁ ts₁).rest e) :
    ∃ a₂ marks', (readBody env₂ ms₂ ts₂).outcome = .ok (a₂, []) ∧ Same a₁ a₂ ∧
      marks' ⊆ marks ∧ Aligned env₁ env₂ marks' (readBody env₁ ms₁ ts₁).rest
        (readBody env₂ ms₂ ts₂).rest := by
  have hend_eq : atBodyEnd ts₁ = atBodyEnd ts₂ := by
    rw [atBodyEnd, atBodyEnd, h.next_eq (byKind_isMark .braceClose), h.isEmpty_eq]
  by_cases hend : atBodyEnd ts₁ = true
  · rw [readBody_of_end env₁ ms₁ hend] at ha₁ hmarks ⊢
    rw [readBody_of_end env₂ ms₂ (hend_eq ▸ hend)]
    cases ha₁
    exact ⟨ms₂, marks, rfl, hms, List.Subset.refl _, h⟩
  · cases hm₁ : (readMember env₁ ts₁).outcome with
    | error fault =>
      exact absurd rfl (readBody_gives_fault env₁ ms₁ hend hm₁ (a₁, []) ha₁)
    | ok m₁ =>
      have hlt := readMember_advances env₁ ts₁ m₁ hm₁
      have hended := readMember_gives env₁ h.ordered m₁ hm₁
      rw [readBody_of_ok env₁ ms₁ hend (Reading.eq_of_outcome hm₁)] at ha₁ hmarks ⊢
      have hmembers : ∀ e ∈ marks, e ∈ m₁.ownStops ∨
          Ahead (readMember env₁ ts₁).rest e := by
        intro e he
        rcases hmarks e he with hin | hahead
        · have hsplit := readBody_gives env₁ (ms₁.add m₁)
            (h.ordered.suffix (readMember env₁ ts₁).suffix) (a₁, []) ha₁ e hin
          rw [Members.mem_ownStops_add] at hsplit
          rcases hsplit with (hin | hin) | hended
          · exact absurd hin (hfresh e he)
          · exact .inl hin
          · exact .inr hended.ahead
        · exact .inr
            (hahead.mono (readBody env₁ (ms₁.add m₁) (readMember env₁ ts₁).rest).suffix)
      obtain ⟨m₂, marks₁, hm₂, hsame, hsub, hus⟩ := readMember_past h m₁ hm₁ hmembers
      have hfresh' : ∀ e ∈ marks₁, e ∉ (ms₁.add m₁).ownStops := by
        intro e he hin
        rcases Members.mem_ownStops_add.1 hin with hin | hin
        · exact hfresh e (hsub he) hin
        · exact (hended e hin).not_ahead (hus.marks_ahead e he)
      obtain ⟨a₂, marks', ha₂, hsame', hsub', hrest⟩ :=
        readBody_past hus (hms.add hsame) hfresh' ha₁ fun e he => hmarks e (hsub he)
      rw [readBody_of_ok env₂ ms₂ (hend_eq ▸ hend) (Reading.eq_of_outcome hm₂)]
      exact ⟨a₂, marks', ha₂, hsame', List.Subset.trans hsub' hsub, hrest⟩
termination_by ts₁.length
decreasing_by omega

theorem readClassRest_of_ok (env : Env) (header : ClassLike) {ts us : List Item} {ms : Members}
    {faults : List Fault} {suffix : us <:+ ts}
    (h : readBody env {} ts = ⟨.ok (ms, faults), us, suffix⟩) :
    readClassRest env header ts
      = (((expectMark env .braceClose us).mapError fun fault => faults ++ [fault]).map
        fun closing =>
        ({ header with toMembers := ms, span := header.span.merge closing.span }, faults)).widen
          suffix := by
  rw [readClassRest, h]
  rfl

theorem readClass_of_ok (env : Env) {ts us : List Item} {header : ClassLike} {suffix : us <:+ ts}
    (h : readHeader env ts = ⟨.ok header, us, suffix⟩) :
    readClass env ts = (readClassRest env header us).widen suffix := by
  rw [readClass, h]
  rfl

/-- **The rest of a class** is the same whatever stands in the places that belong to it. -/
theorem readClassRest_past {ts₁ ts₂ : List Item} (h : Aligned env₁ env₂ marks ts₁ ts₂)
    {header₁ header₂ : ClassLike} (hheader : Same header₁ header₂) {c₁ : ClassLike}
    (hc₁ : (readClassRest env₁ header₁ ts₁).outcome = .ok (c₁, []))
    (hmarks : ∀ e ∈ marks,
      e ∈ c₁.toMembers.ownStops ∨ Ahead (readClassRest env₁ header₁ ts₁).rest e) :
    ∃ c₂ marks', (readClassRest env₂ header₂ ts₂).outcome = .ok (c₂, []) ∧
      Same c₁ c₂ ∧ marks' ⊆ marks ∧
      Aligned env₁ env₂ marks' (readClassRest env₁ header₁ ts₁).rest
        (readClassRest env₂ header₂ ts₂).rest := by
  cases hbody₁ : (readBody env₁ {} ts₁).outcome with
  | error fault =>
    rw [readClassRest, Reading.eq_of_outcome hbody₁] at hc₁
    cases hc₁
  | ok a₁ =>
    obtain ⟨ms₁, faults⟩ := a₁
    rw [readClassRest_of_ok env₁ header₁ (Reading.eq_of_outcome hbody₁)] at hc₁ hmarks ⊢
    rw [Reading.outcome_widen, Reading.outcome_map_eq_ok_iff] at hc₁
    simp only [Reading.rest_widen, Reading.rest_map, Reading.rest_mapError] at hmarks ⊢
    obtain ⟨closing₁, hclosing₁, hclass₁⟩ := hc₁
    cases hclass₁
    rw [Reading.outcome_mapError_eq_ok_iff] at hclosing₁
    have hsuffix := (expectMark env₁ .braceClose (readBody env₁ {} ts₁).rest).suffix
    obtain ⟨ms₂, marks', hbody₂, hsame, hsub, hus⟩ :=
      readBody_past h (Same.refl {}) (fun _ _ => List.not_mem_nil) hbody₁
        fun e he => (hmarks e he).imp_right fun hahead => hahead.mono hsuffix
    have hahead : ∀ e ∈ marks',
        Ahead (expectMark env₁ .braceClose (readBody env₁ {} ts₁).rest).rest e := by
      intro e he
      rcases hmarks e (hsub he) with hin | hahead
      · have hended := readBody_gives env₁ {} h.ordered (ms₁, []) hbody₁ e hin
        have hpassed := hended.resolve_left List.not_mem_nil
        exact absurd (hus.marks_ahead e he) hpassed.not_ahead
      · exact hahead
    obtain ⟨closing₂, hclosing₂, -, hrest⟩ :=
      expectMark_follows hus .braceClose closing₁ hclosing₁ hahead
    rw [readClassRest_of_ok env₂ header₂ (Reading.eq_of_outcome hbody₂),
      Reading.outcome_widen, Reading.rest_widen, Reading.rest_map, Reading.rest_mapError]
    refine ⟨_, marks', Reading.outcome_map_eq_ok_iff.2
      ⟨closing₂, Reading.outcome_mapError_eq_ok_iff.2 hclosing₂, rfl⟩, ?_, hsub, hrest⟩
    exact hheader.withMembers hsame _ _

/-- **A class** is the same whatever stands in the places that belong to it. -/
theorem readClass_past {ts₁ ts₂ : List Item} (h : Aligned env₁ env₂ marks ts₁ ts₂)
    {c₁ : ClassLike} (hc₁ : (readClass env₁ ts₁).outcome = .ok (c₁, []))
    (hmarks : ∀ e ∈ marks, e ∈ c₁.toMembers.ownStops ∨
      Ahead (readClass env₁ ts₁).rest e) :
    ∃ c₂ marks', (readClass env₂ ts₂).outcome = .ok (c₂, []) ∧ Same c₁ c₂ ∧
      marks' ⊆ marks ∧ Aligned env₁ env₂ marks' (readClass env₁ ts₁).rest
        (readClass env₂ ts₂).rest := by
  cases hheader₁ : (readHeader env₁ ts₁).outcome with
  | error fault =>
    rw [readClass, Reading.eq_of_outcome hheader₁] at hc₁
    cases hc₁
  | ok header₁ =>
    have hsuffix := (readHeader env₁ ts₁).suffix
    rw [readClass_of_ok env₁ (Reading.eq_of_outcome hheader₁)] at hc₁ hmarks ⊢
    rw [Reading.outcome_widen] at hc₁
    rw [Reading.rest_widen] at hmarks ⊢
    have hended := readClassRest_gives env₁ header₁ (h.ordered.suffix hsuffix) (c₁, []) hc₁
    have hahead : ∀ e ∈ marks, Ahead (readHeader env₁ ts₁).rest e := by
      intro e he
      rcases hmarks e he with hin | hahead
      · exact (hended e hin).ahead
      · exact hahead.mono (readClassRest env₁ header₁ (readHeader env₁ ts₁).rest).suffix
    obtain ⟨header₂, hheader₂, hsame, hus⟩ :=
      readHeader_follows h header₁ hheader₁ hahead
    rw [readClass_of_ok env₂ (Reading.eq_of_outcome hheader₂)]
    exact readClassRest_past hus hsame hc₁ hmarks

end PhpHandbook.Declaration
