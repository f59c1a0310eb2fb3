import PhpHandbook.Proofs.BodyStops

/-!
# Values side by side

Readers of members pass places where two texts differ, when what is marked there belongs to the
member that they read.  Before it is known that it does, it has to be known that it is still ahead;
both are told by offsets.  If all marks belong to what a reader gives, or are ahead at the end, then
each reader on the way there finds them ahead or passes them.

A name that is assigned to is such a place.  What stands around the equals sign behind it is seen by
no reader: the name is taken, then the sign, and the value starts with the next token.

## Main definitions

* `FollowsPast`: a reading of the second text goes along with one of the first, past places that
  differ.

## Main statements

* `FollowsPast.andThen`: sequences of readers.
* `readAssigned_past`: a name with its value.
* `readCase_past`, `readConstants_past`, `readProperties_past`, `readParams_past`: all declarations
  that may have values.
-/

namespace PhpHandbook.Declaration

open Source (Span TokenKind)

variable {env₁ env₂ : Env} {marks : List Nat}

/-- **The second reading follows the first past places where the texts differ**: where the first
succeeds, and each of these places belongs to what it gives or lies ahead, the second succeeds too,
gives the same but for places, and leaves off at the same place. -/
def FollowsPast {ε α : Type} [Spanned α] (env₁ env₂ : Env) (marks : List Nat)
    (stops : α → List Nat) {ts₁ ts₂ : List Item} (r₁ : Reading Item ε α ts₁)
    (r₂ : Reading Item ε α ts₂) : Prop :=
  ∀ a₁, r₁.outcome = .ok a₁ →
    (∀ e ∈ marks, e ∈ stops a₁ ∨ Ahead r₁.rest e) →
    ∃ a₂ marks', r₂.outcome = .ok a₂ ∧ Same a₁ a₂ ∧ marks' ⊆ marks ∧
      Aligned env₁ env₂ marks' r₁.rest r₂.rest

section Rules

variable {ε α β : Type} [Spanned α] [Spanned β] {ts₁ ts₂ : List Item}
  {stops : α → List Nat} {stops' : β → List Nat}

/-- Where no mark belongs to what is read, all of them lie ahead. -/
theorem Follows.past {r₁ : Reading Item ε α ts₁} {r₂ : Reading Item ε α ts₂}
    (h : Follows env₁ env₂ marks r₁ r₂)
    (hnone : Gives r₁ fun a _ => ∀ e ∈ marks, e ∉ stops a) :
    FollowsPast env₁ env₂ marks stops r₁ r₂ := by
  intro a₁ ha₁ hmarks
  have hahead : ∀ e ∈ marks, Ahead r₁.rest e :=
    fun e he => (hmarks e he).resolve_left (hnone a₁ ha₁ e he)
  obtain ⟨a₂, ha₂, hsame, hrest⟩ := h a₁ ha₁ hahead
  exact ⟨a₂, marks, ha₂, hsame, List.Subset.refl _, hrest⟩

theorem Follows.map_past {r₁ : Reading Item ε α ts₁} {r₂ : Reading Item ε α ts₂}
    {f₁ f₂ : α → β} (h : Follows env₁ env₂ marks r₁ r₂)
    (hnone : ∀ a, ∀ e ∈ marks, e ∉ stops' (f₁ a))
    (hf : ∀ a₁ a₂, Same a₁ a₂ → Same (f₁ a₁) (f₂ a₂)) :
    FollowsPast env₁ env₂ marks stops' (r₁.map f₁) (r₂.map f₂) :=
  (h.map hf).past (Gives.map fun a _ => hnone a)

theorem FollowsPast.map {r₁ : Reading Item ε α ts₁} {r₂ : Reading Item ε α ts₂}
    {f₁ f₂ : α → β} (h : FollowsPast env₁ env₂ marks stops r₁ r₂)
    (hstops : Gives r₁ fun a _ => ∀ e ∈ marks, e ∈ stops' (f₁ a) → e ∈ stops a)
    (hf : ∀ a₁ a₂, Same a₁ a₂ → Same (f₁ a₁) (f₂ a₂)) :
    FollowsPast env₁ env₂ marks stops' (r₁.map f₁) (r₂.map f₂) := by
  intro b₁ hb₁ hmarks
  obtain ⟨a₁, ha₁, rfl⟩ := Reading.outcome_map_eq_ok_iff.1 hb₁
  rw [Reading.rest_map] at hmarks
  obtain ⟨a₂, marks', ha₂, hsame, hsub, hrest⟩ :=
    h a₁ ha₁ fun e he => (hmarks e he).imp_left fun hin => hstops a₁ ha₁ e he hin
  refine ⟨f₂ a₂, marks', Reading.outcome_map_eq_ok_iff.2 ⟨a₂, ha₂, rfl⟩,
    hf a₁ a₂ hsame, hsub, ?_⟩
  rwa [Reading.rest_map, Reading.rest_map]

/-- **A reading that passes marks may come behind one that does not.**  What the second one passes
is ahead of the first. -/
theorem Follows.andThen_past_of {r₁ : Reading Item ε α ts₁} {r₂ : Reading Item ε α ts₂}
    {next₁ : α → (us : List Item) → us.length ≤ ts₁.length → Reading Item ε β us}
    {next₂ : α → (us : List Item) → us.length ≤ ts₂.length → Reading Item ε β us}
    (h : Follows env₁ env₂ marks r₁ r₂)
    (hgives : ∀ a us le, us <:+ ts₁ →
      Gives (next₁ a us le) fun b rest => ∀ e ∈ marks, e ∈ stops' b → Ended us rest e)
    (hnext : ∀ a₁ us₁ le₁ a₂ us₂ le₂, Same a₁ a₂ → us₁ <:+ ts₁ →
      Aligned env₁ env₂ marks us₁ us₂ →
      FollowsPast env₁ env₂ marks stops' (next₁ a₁ us₁ le₁)
        (next₂ a₂ us₂ le₂)) :
    FollowsPast env₁ env₂ marks stops' (r₁.andThen next₁) (r₂.andThen next₂) := by
  intro b₁ hb₁ hmarks
  obtain ⟨a₁, ha₁, hnext₁⟩ := Reading.outcome_andThen_eq_ok hb₁
  rw [Reading.andThen_of_ok ha₁] at hmarks ⊢
  have hahead : ∀ e ∈ marks, Ahead r₁.rest e := by
    intro e he
    rcases hmarks e he with hin | hrest
    · exact (hgives a₁ r₁.rest r₁.suffix.length_le r₁.suffix b₁ hnext₁ e he hin).ahead
    · exact hrest.mono (next₁ a₁ r₁.rest r₁.suffix.length_le).suffix
  obtain ⟨a₂, ha₂, hsame, hrest⟩ := h a₁ ha₁ hahead
  rw [Reading.andThen_of_ok ha₂]
  exact hnext a₁ _ _ a₂ _ _ hsame r₁.suffix hrest b₁ hnext₁ hmarks

theorem Follows.andThen_past {r₁ : Reading Item ε α ts₁} {r₂ : Reading Item ε α ts₂}
    {next₁ : α → (us : List Item) → us.length ≤ ts₁.length → Reading Item ε β us}
    {next₂ : α → (us : List Item) → us.length ≤ ts₂.length → Reading Item ε β us}
    (h : Follows env₁ env₂ marks r₁ r₂)
    (hgives : ∀ a us le, us <:+ ts₁ → Gives (next₁ a us le) (EndsEach stops' us))
    (hnext : ∀ a₁ us₁ le₁ a₂ us₂ le₂, Same a₁ a₂ → us₁ <:+ ts₁ →
      Aligned env₁ env₂ marks us₁ us₂ →
      FollowsPast env₁ env₂ marks stops' (next₁ a₁ us₁ le₁)
        (next₂ a₂ us₂ le₂)) :
    FollowsPast env₁ env₂ marks stops' (r₁.andThen next₁) (r₂.andThen next₂) :=
  h.andThen_past_of (fun a us le hus b hb e _ => hgives a us le hus b hb e) hnext

/-- **Sequences follow past marks** when each step does.  What belongs to the first step has been
passed when the next one begins. -/
theorem FollowsPast.andThen {r₁ : Reading Item ε α ts₁} {r₂ : Reading Item ε α ts₂}
    {next₁ : α → (us : List Item) → us.length ≤ ts₁.length → Reading Item ε β us}
    {next₂ : α → (us : List Item) → us.length ≤ ts₂.length → Reading Item ε β us}
    (h : FollowsPast env₁ env₂ marks stops r₁ r₂)
    (hends : Gives r₁ (EndsEach stops ts₁))
    (hgives : ∀ a us le, us <:+ ts₁ →
      Gives (next₁ a us le) fun b rest => ∀ e ∈ stops' b, e ∈ stops a ∨ Ended us rest e)
    (hnext : ∀ a₁ us₁ le₁ a₂ us₂ le₂ marks', Same a₁ a₂ → us₁ <:+ ts₁ →
      (∀ e ∈ marks', e ∉ stops a₁) → Aligned env₁ env₂ marks' us₁ us₂ →
      FollowsPast env₁ env₂ marks' stops' (next₁ a₁ us₁ le₁) (next₂ a₂ us₂ le₂)) :
    FollowsPast env₁ env₂ marks stops' (r₁.andThen next₁) (r₂.andThen next₂) := by
  intro b₁ hb₁ hmarks
  obtain ⟨a₁, ha₁, hnext₁⟩ := Reading.outcome_andThen_eq_ok hb₁
  rw [Reading.andThen_of_ok ha₁] at hmarks ⊢
  have hmarksFirst : ∀ e ∈ marks, e ∈ stops a₁ ∨ Ahead r₁.rest e := by
    intro e he
    rcases hmarks e he with hin | hrest
    · exact (hgives a₁ r₁.rest r₁.suffix.length_le r₁.suffix b₁ hnext₁ e hin).imp_right
        Ended.ahead
    · exact .inr (hrest.mono (next₁ a₁ r₁.rest r₁.suffix.length_le).suffix)
  obtain ⟨a₂, marks', ha₂, hsame, hsub, hrest⟩ := h a₁ ha₁ hmarksFirst
  have hfresh : ∀ e ∈ marks', e ∉ stops a₁ :=
    fun e he hin => (hends a₁ ha₁ e hin).not_ahead (hrest.marks_ahead e he)
  rw [Reading.andThen_of_ok ha₂]
  obtain ⟨b₂, marks'', hb₂, hsame', hsub', hrest'⟩ :=
    hnext a₁ _ _ a₂ _ r₂.suffix.length_le marks'
    hsame r₁.suffix hfresh hrest b₁ hnext₁ fun e he => hmarks e (hsub he)
  exact ⟨b₂, marks'', hb₂, hsame', List.Subset.trans hsub' hsub, hrest'⟩

/-- Branches on a mark that opens no block follow past marks when both sides do. -/
theorem followsPast_onMark (mark : Source.Mark) (hmark : mark ≠ .braceOpen)
    (h : Aligned env₁ env₂ marks ts₁ ts₂)
    {yes₁ : Item → (us : List Item) → us.length < ts₁.length → Reading Item ε α us}
    {yes₂ : Item → (us : List Item) → us.length < ts₂.length → Reading Item ε α us}
    {no₁ : Reading Item ε α ts₁} {no₂ : Reading Item ε α ts₂}
    (hyes : ∀ t₁ us₁ lt₁ t₂ us₂ lt₂, Same t₁ t₂ → us₁ <:+ ts₁ →
      Aligned env₁ env₂ marks us₁ us₂ →
      FollowsPast env₁ env₂ marks stops (yes₁ t₁ us₁ lt₁) (yes₂ t₂ us₂ lt₂))
    (hno : FollowsPast env₁ env₂ marks stops no₁ no₂) :
    FollowsPast env₁ env₂ marks stops (Reading.onNext (isMark mark) ts₁ yes₁ no₁)
      (Reading.onNext (isMark mark) ts₂ yes₂ no₂) := by
  rcases h.cases with ⟨-, rfl, rfl⟩ | ⟨t₁, us₁, t₂, us₂, rfl, rfl, hsame, hus⟩ |
    ⟨t₁, c₁, body₁, us₁, t₂, c₂, body₂, us₂, e, marks', hm⟩
  · exact hno
  · simp only [Reading.onNext, ← byKind_isMark mark t₁ t₂ hsame.kind_eq]
    split
    · exact hyes t₁ us₁ _ t₂ us₂ _ hsame (List.suffix_cons t₁ us₁) hus
    · exact hno
  · obtain ⟨rfl, rfl, rfl, hsame, hdiffer, -, -⟩ := hm
    have hnot₁ : ¬isMark mark t₁ = true := by
      intro ht
      cases hdiffer with
      | block hopen => exact not_braceOpen_of_mark ht hmark hopen
      | assigned hname => exact not_isNaming_of_mark ht hname
    have hnot₂ : ¬isMark mark t₂ = true := by
      rwa [← byKind_isMark mark t₁ t₂ hsame.kind_eq]
    simp only [Reading.onNext, if_neg hnot₁, if_neg hnot₂]
    exact hno

end Rules

/-! ### A name with its value -/

theorem readNameOf_follows {ts₁ ts₂ : List Item} (h : Aligned env₁ env₂ marks ts₁ ts₂)
    (sort : NameSort) :
    Follows env₁ env₂ marks (readNameOf env₁ sort ts₁) (readNameOf env₂ sort ts₂) := by
  cases sort with
  | ofMember => exact readMemberName_follows h
  | ofVariable => exact readVariable_follows h

theorem NameSort.byKind_takes (sort : NameSort) : ByKind sort.takes := by
  cases sort with
  | ofMember => exact byKind_of_kind fun k => k == .name || k.isKeyword
  | ofVariable => exact byKind_isKind .variableName

theorem NameSort.same_ident (sort : NameSort) {t₁ t₂ : Item} (h : Same t₁ t₂) :
    Same (sort.ident t₁) (sort.ident t₂) := by
  cases sort with
  | ofMember =>
    rw [ident, ident, h.lexeme_eq]
    exact Same.ident _ _ _
  | ofVariable =>
    rw [ident, ident, h.lexeme_eq]
    exact Same.ident _ _ _

theorem readAssigned_follows {stops : Item → Bool} (hstops : ByKind stops)
    {ts₁ ts₂ : List Item} (h : Aligned env₁ env₂ marks ts₁ ts₂) (sort : NameSort) :
    Follows env₁ env₂ marks (readAssigned env₁ sort stops ts₁)
      (readAssigned env₂ sort stops ts₂) :=
  (readNameOf_follows h sort).andThen fun _ _ _ _ _ _ hname hus =>
    (readDefault_follows hstops hus).map fun _ _ hvalue => hname.prod hvalue

/-- **What stands around an equals sign is not seen** by the reader of a name with its value. -/
theorem readAssigned_past {stops : Item → Bool} (hstops : ByKind stops) {ts₁ ts₂ : List Item}
    (h : Aligned env₁ env₂ marks ts₁ ts₂) (sort : NameSort) :
    FollowsPast env₁ env₂ marks assignedStops (readAssigned env₁ sort stops ts₁)
      (readAssigned env₂ sort stops ts₂) := by
  rcases h.cases with ⟨-, rfl, rfl⟩ | ⟨t₁, us₁, t₂, us₂, rfl, rfl, -, hus⟩ |
    ⟨t₁, c₁, body₁, us₁, t₂, c₂, body₂, us₂, mark, marks', hm⟩
  · intro a ha
    obtain ⟨t, us, hts, -⟩ := readAssigned_gives_cons env₁ sort stops [] a ha
    cases hts
  · -- the name has been passed, and all marks are behind it
    refine (readAssigned_follows hstops h sort).past fun a ha e he hin => ?_
    obtain ⟨t, us, hts, -, hname⟩ := readAssigned_gives_cons env₁ sort stops _ a ha
    cases hts
    obtain ⟨i, hi, rfl⟩ := (hus.marks_ahead e he).exists_mem
    exact absurd (hname _ hin).1 (Nat.ne_of_gt (List.rel_of_pairwise_cons h.ordered hi))
  · obtain ⟨rfl, rfl, rfl, hsame, hdiffer, hus, -⟩ := hm
    intro a ha hmarks
    obtain ⟨t, us, hts, ht, hname⟩ := readAssigned_gives_cons env₁ sort stops _ a ha
    cases hts
    cases hdiffer with
    | block hopen => exact absurd (NameSort.isNaming ht) (not_isNaming_of_mark hopen)
    | assigned hnaming hequals hc =>
      have ht₂ : sort.takes t₂ = true := sort.byKind_takes t₁ t₂ hsame.kind_eq ▸ ht
      have hc₂ : isMark .equals c₂ = true :=
        byKind_isMark .equals c₁ c₂ hc.kind_eq ▸ hequals
      have hahead : ∀ e ∈ marks',
          Ahead (readAssigned env₁ sort stops (t₁ :: c₁ :: us₁)).rest e := by
        intro e he
        refine (hmarks e (List.mem_cons_of_mem _ he)).resolve_left fun hin => ?_
        obtain ⟨i, hi, rfl⟩ := (hus.marks_ahead e he).exists_mem
        have hlt := List.rel_of_pairwise_cons h.ordered (List.mem_cons_of_mem c₁ hi)
        exact absurd (hname _ hin).1 (Nat.ne_of_gt hlt)
      simp only [List.nil_append] at ha ⊢
      rw [readAssigned_of_equals env₁ stops ht hequals] at ha hahead ⊢
      rw [readAssigned_of_equals env₂ stops ht₂ hc₂]
      have hvalue : Follows env₁ env₂ marks'
          ((readExpression env₁ stops us₁).map fun v => (sort.ident t₁, some v))
          ((readExpression env₂ stops us₂).map fun v => (sort.ident t₂, some v)) :=
        (readExpression_follows hstops hus).map fun _ _ hv => (sort.same_ident hsame).prod hv.some
      obtain ⟨a₂, ha₂, hsame₂, hrest⟩ := hvalue a ha hahead
      exact ⟨a₂, marks', ha₂, hsame₂, List.subset_cons_self _ _, hrest⟩

/-! ### Cases and constants -/

theorem readCase_past {ts₁ ts₂ : List Item} (h : Aligned env₁ env₂ marks ts₁ ts₂)
    {doc₁ doc₂ : Option Comment} (hdoc : Same doc₁ doc₂) (start₁ start₂ : Span) :
    FollowsPast env₁ env₂ marks (fun c => nameStops c.assigned)
      (readCase env₁ doc₁ start₁ ts₁)
      (readCase env₂ doc₂ start₂ ts₂) := by
  rw [readCase_eq, readCase_eq]
  refine (expectKeyword_follows h .kwCase).andThen_past
    (fun _ us _ hus => readCaseEnd_gives env₁ doc₁ start₁ (h.ordered.suffix hus))
    fun _ us₁ _ _ us₂ _ _ _ hus => ?_
  refine (readAssigned_past (byKind_isMark .semicolon) hus .ofMember).andThen
    (readAssigned_gives env₁ _ _ hus.ordered) (fun _ _ _ _ => Gives.map fun _ _ _ he => .inl he)
    fun a₁ vs₁ _ a₂ vs₂ _ marks' ha _ hfresh hvs => ?_
  exact (expectMark_follows hvs .semicolon).map_past (fun _ => hfresh) fun _ _ _ =>
    Same.enumCase ha.fst ha.snd.option_eq hdoc

theorem readConstantList_past {marks : List Nat} {ts₁ ts₂ : List Item}
    (h : Aligned env₁ env₂ marks ts₁ ts₂) {make₁ make₂ : Ident → String → Constant}
    (hname : ∀ name value, (make₁ name value).name = name)
    (hmake : ∀ n₁ n₂ value, Same n₁ n₂ →
      Same (make₁ n₁ value) (make₂ n₂ value)) :
    FollowsPast env₁ env₂ marks constantStops (readConstantList env₁ make₁ ts₁)
      (readConstantList env₂ make₂ ts₂) := by
  rw [readConstantList_eq, readConstantList_eq]
  refine (readAssigned_past byKind_endsConstant h .ofMember).andThen
    (readAssigned_gives env₁ _ _ h.ordered) (fun a us le hus => ?_)
    fun a₁ us₁ le₁ a₂ us₂ _ marks' ha _ hfresh hus => ?_
  · exact readMoreConstants_gives env₁ hname a fun vs hvs _ =>
      readConstantList_gives env₁ hname (h.ordered.suffix (hvs.trans hus))
  · obtain ⟨name₁, value₁⟩ := a₁
    obtain ⟨name₂, value₂⟩ := a₂
    obtain rfl : value₁ = value₂ := ha.snd.option_eq
    cases value₁ with
    | none => exact follows_fail.past nofun
    | some value =>
      have hconstant := hmake name₁ name₂ value ha.fst
      simp only [readMoreConstants]
      refine followsPast_onMark .comma nofun hus (fun _ vs₁ lt₁ _ vs₂ _ _ _ hvs => ?_) ?_
      · refine (readConstantList_past hvs hname hmake).map (fun cs _ e he hin => ?_)
          fun _ _ hcs => hconstant.cons hcs
        rw [constantStops, nameStops, List.map_cons, List.map_cons, List.mem_cons, hname] at hin
        exact hin.resolve_left fun heq => hfresh e he (heq ▸ List.mem_singleton_self _)
      · refine (follows_done hus (hconstant.cons (Same.refl _))).past
          (gives_done fun e he hin => ?_)
        rw [constantStops, nameStops, List.map_singleton, List.map_singleton, hname] at hin
        exact hfresh e he hin
termination_by ts₁.length
decreasing_by omega

/-- A reading that gives nothing. -/
def GivesNone {α : Type} {ts : List Item} (r : Read α ts) : Prop :=
  Gives r fun _ _ => False

theorem GivesNone.andThen {α β : Type} {ts : List Item} {r : Read α ts} (h : GivesNone r)
    (next : α → (us : List Item) → us.length ≤ ts.length → Read β us) :
    GivesNone (r.andThen next) :=
  Gives.andThen h fun _ _ _ _ hfalse => hfalse.elim

/-- No type starts with a block. -/
theorem readHint_of_open (env : Env) {t : Item} (us : List Item) (ht : isMark .braceOpen t) :
    GivesNone (readHint env (t :: us)) := by
  have hkind : t.kind = .mark .braceOpen := by simpa [isMark] using ht
  have hnot {mark : Source.Mark} {i : Item} {vs : List Item} (hts : t :: us = i :: vs)
      (hi : isMark mark i) (hne : mark ≠ .braceOpen) : False := by
    cases hts
    exact not_braceOpen_of_mark hi hne ht
  have hsingle : GivesNone (readSingleHint env (t :: us)) := by
    refine Gives.map (gives_onNext_cases (fun i vs _ hts hi => ?_) fun _ _ ha => by cases ha)
    cases hts
    rw [isTypeName, isKeyword, hkind] at hi
    exact absurd hi (by decide)
  unfold readHint
  refine gives_onNext_cases (fun i vs _ hts hi => (hnot hts hi (by decide)).elim) fun _ => ?_
  unfold readGroup
  refine GivesNone.andThen (gives_onNext_cases (fun i vs _ hts hi => ?_) fun _ => ?_) _
  · exact (hnot hts hi (by decide)).elim
  · exact hsingle.andThen _

/-- No constant starts with a block, with or without a type. -/
theorem readTypedConstants_of_open (env : Env)
    (make : Option TypeHint → Ident → String → Constant) (wanted : Bool) {t : Item}
    (us : List Item) (ht : isMark .braceOpen t) :
    GivesNone ((readHintIf env wanted (t :: us)).andThen fun type vs _ =>
      readConstantsEnd env (make type) vs) := by
  rw [readHintIf]
  split
  · exact GivesNone.andThen (Gives.map (readHint_of_open env us ht)) _
  · rw [Reading.done_andThen, readConstantsEnd, readConstantList_eq, Reading.andThen_andThen]
    refine (readAssigned_gives_cons env _ _ _).andThen fun a vs _ _ hname => ?_
    obtain ⟨i, ws, hts, hi, -⟩ := hname
    cases hts
    exact absurd (NameSort.isNaming hi) (not_isNaming_of_mark ht)

theorem readConstants_past {ts₁ ts₂ : List Item} (h : Aligned env₁ env₂ marks ts₁ ts₂)
    (modifiers : Modifiers) {doc₁ doc₂ : Option Comment} (hdoc : Same doc₁ doc₂)
    (start₁ start₂ : Span) :
    FollowsPast env₁ env₂ marks constantStops
      (readConstants env₁ modifiers doc₁ start₁ ts₁)
      (readConstants env₂ modifiers doc₂ start₂ ts₂) := by
  refine (expectKeyword_follows h .kwConst).andThen_past (fun _ us _ hus => ?_)
    fun _ us₁ _ _ us₂ _ _ _ hus => ?_
  · exact gives_andThen_mono fun _ _ _ hvs =>
      readConstantsEnd_gives env₁ (fun _ _ => rfl) (h.ordered.suffix (hvs.trans hus))
  · have htyped : constantHasType us₁ = constantHasType us₂ ∨
        next (isMark .braceOpen) us₁ = true := by
      rcases hus.constantHasType_cases with heq |
        ⟨t₁, c₁, body₁, vs₁, t₂, c₂, body₂, vs₂, e, marks', hm⟩
      · exact .inl heq
      · obtain ⟨-, rfl, rfl, hsame, hdiffer, -, -⟩ := hm
        cases hdiffer with
        | block hopen => exact .inr hopen
        | assigned hname hequals hc =>
          simp only [constantHasType, isMark, List.nil_append, hsame.kind_eq, hc.kind_eq, true_or]
    rcases htyped with htyped | hopen
    · rw [← htyped]
      refine (readHintIf_follows hus _).andThen_past (fun _ vs _ hvs => ?_)
        fun _ vs₁ _ _ vs₂ _ htype _ hvs => ?_
      · exact readConstantsEnd_gives env₁ (fun _ _ => rfl) (hus.ordered.suffix hvs)
      · refine (readConstantList_past hvs (fun _ _ => rfl) fun _ _ _ hname => ?_).andThen
          (readConstantList_gives env₁ (fun _ _ => rfl) hvs.ordered)
          (fun _ _ _ _ => Gives.map fun _ _ _ he => .inl he)
          fun cs₁ ws₁ _ cs₂ ws₂ _ marks' hcs _ hfresh hws => ?_
        · exact Same.constant hname htype rfl rfl hdoc
        · exact (expectMark_follows hws .semicolon).map_past (fun _ => hfresh) fun _ _ _ => hcs
    · intro a ha
      cases us₁ with
      | nil => cases hopen
      | cons t vs =>
        exact (readTypedConstants_of_open env₁ (fun type name value =>
          { name, type, value, modifiers, doc := doc₁, span := start₁.merge name.span }) _ vs
            hopen a ha).elim

/-! ### Properties and parameters -/

theorem readPropertyList_past {marks : List Nat} {ts₁ ts₂ : List Item}
    (h : Aligned env₁ env₂ marks ts₁ ts₂)
    {make₁ make₂ : Ident → Option String → Bool → Property}
    (hname : ∀ name value hasHooks,
      (make₁ name value hasHooks).assigned = assignedName name value)
    (hmake : ∀ n₁ n₂ fallback hooks, Same n₁ n₂ →
      Same (make₁ n₁ fallback hooks) (make₂ n₂ fallback hooks)) :
    FollowsPast env₁ env₂ marks propertyStops (readPropertyList env₁ make₁ ts₁)
      (readPropertyList env₂ make₂ ts₂) := by
  rw [readPropertyList_eq, readPropertyList_eq]
  have hmore (a : Ident × Option String) (hasHooks : Bool) (us : List Item) (hus : us <:+ ts₁) :=
    readMoreProperties_gives env₁ hname a hasHooks fun vs hvs _ =>
      readPropertyList_gives env₁ hname (h.ordered.suffix (hvs.trans hus))
  refine (readAssigned_past byKind_endsProperty h .ofVariable).andThen
    (readAssigned_gives env₁ _ _ h.ordered) (fun a us _ hus => ?_)
    fun a₁ us₁ le₁ a₂ us₂ _ marks' ha hsuffix hfresh hus => ?_
  · refine gives_andThen fun hasHooks vs _ hvs ps hps e he => ?_
    exact (hmore a hasHooks vs (hvs.trans hus) ps hps e he).imp_right fun hended =>
      hended.mono hvs (List.suffix_refl _)
  obtain ⟨name₁, fallback₁⟩ := a₁
  obtain ⟨name₂, fallback₂⟩ := a₂
  obtain rfl : fallback₁ = fallback₂ := ha.snd.option_eq
  have hfirst (hooks : Bool) (e : Nat) (he : e ∈ marks') :
      e ∉ propertyStops [make₁ name₁ fallback₁ hooks] := by
    rw [propertyStops, List.flatMap_singleton, hname]
    exact hfresh e he
  refine (readHooks_follows hus).andThen_past_of (fun hooks vs _ hvs => ?_)
    fun hooks₁ vs₁ le₂ hooks₂ vs₂ _ hhooks _ hvs => ?_
  · exact fun ps hps e he hin =>
      (hmore _ hooks vs (hvs.trans hsuffix) ps hps e hin).resolve_left (hfresh e he)
  · obtain rfl : hooks₁ = hooks₂ := hhooks
    have hproperty := hmake name₁ name₂ fallback₁ hooks₁ ha.fst
    rw [readMoreProperties, readMoreProperties]
    split
    · exact (follows_done hvs (hproperty.cons (Same.refl _))).past (gives_done (hfirst hooks₁))
    · refine followsPast_onMark .comma (by decide) hvs
        (fun _ ws₁ lt₁ _ ws₂ _ _ _ hws => ?_) ?_
      · refine (readPropertyList_past hws hname hmake).map (fun ps _ e he hin => ?_)
          fun _ _ hps => hproperty.cons hps
        rw [propertyStops, List.flatMap_cons, hname, nameStops, List.map_append,
          List.mem_append] at hin
        exact hin.resolve_left (hfresh e he)
      · exact (expectMark_follows hvs .semicolon).map_past (fun _ => hfirst hooks₁) fun _ _ _ =>
          hproperty.cons (Same.refl _)
termination_by ts₁.length
decreasing_by omega

theorem readProperties_past {ts₁ ts₂ : List Item} (h : Aligned env₁ env₂ marks ts₁ ts₂)
    (modifiers : Modifiers) {doc₁ doc₂ : Option Comment} (hdoc : Same doc₁ doc₂)
    (start₁ start₂ : Span) :
    FollowsPast env₁ env₂ marks propertyStops
      (readProperties env₁ modifiers doc₁ start₁ ts₁)
      (readProperties env₂ modifiers doc₂ start₂ ts₂) := by
  rw [readProperties, readProperties, ← h.next_eq (byKind_isKind .variableName)]
  refine (readHintIf_follows h _).andThen_past (fun _ us _ hus => ?_)
    fun _ us₁ _ _ us₂ _ htype _ hus => ?_
  · exact readPropertyList_gives env₁ (fun _ _ _ => rfl) (h.ordered.suffix hus)
  · exact readPropertyList_past hus (fun _ _ _ => rfl) fun _ _ _ _ hname =>
      Same.property hname htype rfl rfl rfl hdoc

theorem readParamFront_follows {ts₁ ts₂ : List Item}
    (h : Aligned env₁ env₂ marks ts₁ ts₂) :
    Follows env₁ env₂ marks (readParamFront env₁ ts₁) (readParamFront env₂ ts₂) := by
  refine (skipAttributes_follows h).andThen fun _ us₁ _ _ us₂ _ _ hus => ?_
  have hdoc := hus.firstDoc h.docComment?
  refine (readModifiers_follows hus {}).andThen
    fun modifiers₁ us₁ _ modifiers₂ us₂ _ hmodifiers hus => ?_
  rw [← hus.next_eq byKind_startsUntyped]
  refine (readHintIf_follows hus _).andThen fun _ us₁ _ _ us₂ _ htype hus => ?_
  refine (skipMark_follows hus .ampersand).andThen fun _ us₁ _ _ us₂ _ hbyRef hus => ?_
  exact (skipMark_follows hus .ellipsis).map fun _ _ hvariadic =>
    hdoc.prod (hmodifiers.prod (htype.prod (hbyRef.prod hvariadic)))

theorem readParam_past {ts₁ ts₂ : List Item} (h : Aligned env₁ env₂ marks ts₁ ts₂) :
    FollowsPast env₁ env₂ marks (fun p => nameStops p.assigned) (readParam env₁ ts₁)
      (readParam env₂ ts₂) := by
  rw [readParam_eq, readParam_eq]
  refine (readParamFront_follows h).andThen_past (fun front us _ hus => ?_)
    fun front₁ us₁ _ front₂ us₂ _ hfront _ hus => ?_
  · exact readParamEnd_gives env₁ _ front (h.ordered.suffix hus)
  · refine (readAssigned_past byKind_endsParam hus .ofVariable).andThen
      (readAssigned_gives env₁ _ _ hus.ordered) (fun _ _ _ _ => Gives.map fun _ _ _ he => .inl he)
      fun a₁ vs₁ _ a₂ vs₂ _ marks' ha _ hfresh hvs => ?_
    obtain ⟨doc₁, modifiers₁, type₁, byRef₁, variadic₁⟩ := front₁
    obtain ⟨doc₂, modifiers₂, type₂, byRef₂, variadic₂⟩ := front₂
    have hmodifiers : modifiers₁ = modifiers₂ := hfront.snd.fst
    refine (readHooks_follows hvs).map_past (fun _ => hfresh) fun _ _ _ => ?_
    exact Same.param ha.fst hfront.snd.snd.fst ha.snd.option_eq hfront.snd.snd.snd.fst
      hfront.snd.snd.snd.snd (by rw [hmodifiers]) hfront.fst

theorem readParamList_past {marks : List Nat} {ts₁ ts₂ : List Item}
    (h : Aligned env₁ env₂ marks ts₁ ts₂) :
    FollowsPast env₁ env₂ marks paramStops (readParamList env₁ ts₁)
      (readParamList env₂ ts₂) := by
  rw [readParamList_eq, readParamList_eq, ← h.next_eq (byKind_isMark .parenClose)]
  split
  · exact (follows_done h (Same.refl _)).past (gives_done fun _ _ => nofun)
  · refine (readParam_past h).andThen (readParam_endsEach env₁ h.ordered) (fun p us _ hus => ?_)
      fun p₁ us₁ le₁ p₂ us₂ _ marks' hp _ hfresh hus => ?_
    · exact readMoreParams_gives env₁ p fun vs hvs _ =>
        readParamList_gives env₁ (h.ordered.suffix (hvs.trans hus))
    · refine followsPast_onMark .comma nofun hus (fun _ vs₁ lt₁ _ vs₂ _ _ _ hvs => ?_) ?_
      · refine (readParamList_past hvs).map (fun ps _ e he hin => ?_) fun _ _ hps => hp.cons hps
        rw [paramStops, List.flatMap_cons, nameStops, List.map_append, List.mem_append] at hin
        exact hin.resolve_left (hfresh e he)
      · refine (follows_done hus (hp.cons (Same.refl _))).past (gives_done fun e he hin => ?_)
        rw [paramStops, List.flatMap_singleton] at hin
        exact hfresh e he hin
termination_by ts₁.length
decreasing_by omega

theorem readParams_past {ts₁ ts₂ : List Item} (h : Aligned env₁ env₂ marks ts₁ ts₂) :
    FollowsPast env₁ env₂ marks paramStops (readParams env₁ ts₁)
      (readParams env₂ ts₂) := by
  refine (expectMark_follows h .parenOpen).andThen_past (fun _ us _ hus => ?_)
    fun _ us₁ _ _ us₂ _ _ _ hus => ?_
  · exact readParamsEnd_gives env₁ (h.ordered.suffix hus)
  · refine (readParamList_past hus).andThen (readParamList_gives env₁ hus.ordered)
      (fun _ _ _ _ => Gives.map fun _ _ _ he => .inl he)
      fun ps₁ vs₁ _ ps₂ vs₂ _ marks' hps _ hfresh hvs => ?_
    exact (expectMark_follows hvs .parenClose).map_past (fun _ => hfresh) fun _ _ _ => hps

end PhpHandbook.Declaration
