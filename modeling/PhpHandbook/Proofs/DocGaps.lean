import PhpHandbook.Proofs.BodyStops
import PhpHandbook.Proofs.Positions

/-!
# The gaps in front of declarations

Comments stand in gaps: each gap is the run of comments directly in front of a token that is none.
The documentation of a declaration is looked for in a few of them, one after the other: in front of
its first token, behind its attribute groups, and behind its modifiers.  The last documentation
comment counts in the first gap that has one.

Attribute groups and modifiers are told here by the tokens that they are made of, and the readers
that pass over them are shown to stop behind the last of them.

## Main definitions

* `InGap`: an item and the comments directly in front of it.
* `AttributesEnd`, `ModifiersEnd`: what is left behind attribute groups, and behind modifiers.
* `FoundIn`: the documentation that several gaps hold.

## Main statements

* `inGap_of_mem_attachComments`: items hold the comments of their gaps.
* `AttributesEnd.unique`, `ModifiersEnd.unique`: the tokens tell what is left.
* `skipAttributes_gives`, `readModifiers_gives`: this is what the readers leave.
* `firstDoc_findSome?`: looking into one gap more.
-/

namespace PhpHandbook.Declaration

open Source (Token TokenKind)

/-! ### Gaps -/

/-- **An item in its gap**: its comments are those that stand directly in front of its token, back
to the last token that is no comment. -/
def InGap (tokens : List Token) (i : Item) : Prop :=
  ∃ before run after, tokens = before ++ (run ++ i.token :: after) ∧
    (∀ t ∈ before.getLast?, ¬t.kind.isTrivia = true) ∧
    (∀ t ∈ run, t.kind.isTrivia = true) ∧ ¬i.kind.isTrivia = true ∧
    i.comments = run.map Comment.ofToken

/-- The comments in the gap in front of the next token. -/
def gap (ts : List Item) : List Comment :=
  (ts.head?.map (·.comments)).getD []

/-- The last documentation comment of a gap. -/
def lastDoc? (comments : List Comment) : Option Comment :=
  (comments.filter Comment.isDoc).getLast?

/-- **The documentation in several gaps**: the last documentation comment of the first gap that has
one.  There is none when no gap has any. -/
structure FoundIn (gaps : List (List Comment)) (comments : List Comment) : Prop where
  eq : comments = (gaps.findSome? lastDoc?).toList
  nil_iff : comments = [] ↔ ∀ g ∈ gaps, ∀ c ∈ g, c.isDoc = false

/-- Items hold the comments of their gaps. -/
theorem inGap_of_mem_attachComments {before run rest : List Token}
    (hbefore : ∀ t ∈ before.getLast?, ¬t.kind.isTrivia = true)
    (hrun : ∀ t ∈ run, t.kind.isTrivia = true) {i : Item}
    (hi : i ∈ attachComments (run.map Comment.ofToken) rest) :
    InGap (before ++ (run ++ rest)) i := by
  induction rest generalizing before run with
  | nil => simp [attachComments] at hi
  | cons t rest ih =>
    by_cases ht : t.kind.isTrivia = true
    · rw [attachComments_comment _ ht] at hi
      have hmore : ∀ u ∈ run ++ [t], u.kind.isTrivia = true :=
        List.forall_mem_append.2 ⟨hrun, by simpa using ht⟩
      have hgap := ih hbefore hmore (by simpa using hi)
      rwa [List.append_assoc, List.singleton_append] at hgap
    · rw [attachComments_cons _ ht] at hi
      rcases List.mem_cons.1 hi with rfl | hi
      · exact ⟨before, run, rest, rfl, hbefore, hrun, ht, rfl⟩
      · have hlast : ∀ u ∈ (before ++ run ++ [t]).getLast?, ¬u.kind.isTrivia = true := by
          simpa using ht
        have hgap := @ih (before ++ run ++ [t]) [] hlast (by simp) hi
        simpa using hgap

/-! ### Documentation in gaps -/

theorem lastDoc?_eq_none_iff {comments : List Comment} :
    lastDoc? comments = none ↔ ∀ c ∈ comments, c.isDoc = false := by
  rw [lastDoc?, List.getLast?_eq_none_iff, List.filter_eq_nil_iff]
  simp only [Bool.not_eq_true]

/-- What stands in front of the next token is what its gap holds. -/
theorem docComment?_eq (ts : List Item) : docComment? ts = lastDoc? (gap ts) := by
  cases ts with
  | nil => rfl
  | cons t us =>
    show t.comments.reverse.find? Comment.isDoc = (t.comments.filter Comment.isDoc).getLast?
    rw [← List.head?_filter, List.filter_reverse, List.head?_reverse]

theorem foundIn_findSome? (gaps : List (List Comment)) :
    FoundIn gaps (gaps.findSome? lastDoc?).toList := by
  refine ⟨rfl, ?_⟩
  rw [Option.toList_eq_nil_iff, List.findSome?_eq_none_iff]
  simp only [lastDoc?_eq_none_iff]

theorem docComment?_eq_findSome? (ts : List Item) :
    docComment? ts = [gap ts].findSome? lastDoc? := by
  rw [docComment?_eq, List.findSome?_singleton]

/-- **Looking into one gap more.** -/
theorem firstDoc_findSome? (gaps : List (List Comment)) (ts : List Item) :
    firstDoc (gaps.findSome? lastDoc?) ts = (gaps ++ [gap ts]).findSome? lastDoc? := by
  rw [firstDoc, docComment?_eq_findSome?, List.findSome?_append]

/-! ### Attribute groups -/

/-- **Behind attribute groups**: each is an opening, balanced tokens and a closing bracket, and what
is left does not open another one. -/
inductive AttributesEnd : List Item → List Item → Prop
  | stop {ts : List Item} (h : next (isMark .attributeOpen) ts = false) : AttributesEnd ts ts
  | group {opening closing : Item} {body us rest : List Item}
    (hopen : isMark .attributeOpen opening) (hbody : Balanced opensSquare closesSquare (kinds body))
    (hclose : isMark .bracketClose closing)
    (h : AttributesEnd us rest) : AttributesEnd (opening :: (body ++ closing :: us)) rest

theorem AttributesEnd.suffix {ts rest : List Item} (h : AttributesEnd ts rest) : rest <:+ ts := by
  induction h with
  | stop => exact List.suffix_rfl
  | @group opening closing body us rest _ _ _ _ ih =>
    have hus : us <:+ body ++ closing :: us :=
      (List.suffix_cons closing us).trans (List.suffix_append _ _)
    exact ih.trans (hus.trans (List.suffix_cons opening _))

/-- Balanced tokens and a bracket that closes more are no longer balanced. -/
theorem not_balanced_of_close {opens closes : TokenKind → Bool} {body more : List Item} {c : Item}
    (hbody : Balanced opens closes (kinds body)) (hopen : ¬opens c.kind = true)
    (hclose : closes c.kind = true) : ¬Balanced opens closes (kinds (body ++ c :: more)) := by
  intro h
  rw [kinds, List.map_append, List.map_cons, Balanced, countBrackets_append] at h
  rw [kinds, Balanced] at hbody
  rw [hbody, Option.bind_some, countBrackets_zero_of_close hopen hclose] at h
  cases h

theorem not_opensSquare_of_close {i : Item} (h : isMark .bracketClose i) :
    ¬opensSquare i.kind = true := by
  simp only [isMark, beq_iff_eq] at h
  rw [h]
  exact Bool.false_ne_true

/-- **There is one end of attribute groups**: the bracket that closes a group is the first one
behind balanced tokens. -/
theorem AttributesEnd.unique {ts rest rest' : List Item} (h : AttributesEnd ts rest)
    (h' : AttributesEnd ts rest') : rest = rest' := by
  induction h with
  | stop hstop =>
    cases h' with
    | stop => rfl
    | group hopen => exact absurd hopen (by simpa [next] using hstop)
  | @group opening closing body us rest hopen hbody hclose _ ih =>
    generalize hts : opening :: (body ++ closing :: us) = ts at h'
    cases h' with
    | stop hstop =>
      subst hts
      exact absurd hopen (by simpa [next] using hstop)
    | @group opening' closing' body' us' rest' _ hbody' hclose' hrest' =>
      have hsame : body ++ closing :: us = body' ++ closing' :: us' := (List.cons.inj hts).2
      refine ih ?_
      rcases List.append_eq_append_iff.1 hsame with ⟨more, rfl, hmore⟩ | ⟨more, rfl, hmore⟩
      · cases more with
        | nil => exact (List.cons.inj hmore).2 ▸ hrest'
        | cons c more =>
          obtain rfl : closing = c := (List.cons.inj hmore).1
          exact absurd hbody' (not_balanced_of_close hbody (not_opensSquare_of_close hclose) hclose)
      · cases more with
        | nil => exact (List.cons.inj hmore).2 ▸ hrest'
        | cons c more =>
          obtain rfl : closing' = c := (List.cons.inj hmore).1
          exact absurd hbody
            (not_balanced_of_close hbody' (not_opensSquare_of_close hclose') hclose')

/-- **Passing over the rest of an attribute group** finds the closing bracket behind which none that
was open before stays open. -/
theorem skipAttribute_gives (opening : Source.Span) (n : Nat) (ts : List Item) :
    Gives (skipAttribute opening n ts) fun _ us => ∃ body closing, ts = body ++ closing :: us ∧
      countBrackets opensSquare closesSquare n (kinds body) = some 0 ∧
      isMark .bracketClose closing := by
  induction ts generalizing n with
  | nil => exact nofun
  | cons t ts ih =>
    have hstep : ∀ {m : Nat}, countBrackets opensSquare closesSquare n (kinds [t]) = some m →
        Gives (skipAttribute opening m ts) fun _ us => ∃ body closing,
          t :: ts = body ++ closing :: us ∧
          countBrackets opensSquare closesSquare n (kinds body) = some 0 ∧
          isMark .bracketClose closing := by
      intro m hm a ha
      obtain ⟨body, closing, hts, hbody, hclosing⟩ := ih m a ha
      refine ⟨t :: body, closing, congrArg (t :: ·) hts, ?_, hclosing⟩
      have hcount := @countBrackets_append opensSquare closesSquare n (kinds [t]) (kinds body)
      rw [hm] at hcount
      exact hcount.trans hbody
    by_cases hopen : opensSquare t.kind = true
    · rw [skipAttribute_of_open opening n hopen]
      exact hstep (countBrackets_of_open n hopen)
    · by_cases hclose : closesSquare t.kind = true
      · cases n with
        | zero =>
          rw [skipAttribute_zero_of_close opening hopen hclose]
          exact fun _ _ => ⟨[], t, rfl, rfl, hclose⟩
        | succ n =>
          rw [skipAttribute_succ_of_close opening n hopen hclose]
          exact hstep (countBrackets_succ_of_close n hopen hclose)
      · rw [skipAttribute_of_other opening n hopen hclose]
        exact hstep (countBrackets_of_other n hopen hclose)

/-- **Passing over attribute groups** stops behind the last of them. -/
theorem skipAttributes_gives (ts : List Item) :
    Gives (skipAttributes ts) fun _ us => AttributesEnd ts us := by
  unfold skipAttributes
  refine gives_onNext_cases (fun t us lt hts ht => ?_) fun hnext => gives_done (.stop hnext)
  refine Gives.andThen (skipAttribute_gives t.token.span 0 us) fun _ vs le _ hgroup a ha => ?_
  obtain ⟨body, closing, rfl, hbody, hclosing⟩ := hgroup
  have hlt : vs.length < ts.length := by omega
  subst hts
  exact .group ht hbody hclosing (skipAttributes_gives vs a ha)
termination_by ts.length
decreasing_by omega

/-! ### Modifiers -/

/-- **Behind modifiers**: each is one word, and some may have `(set)` behind them; what is left does
not start with another one. -/
inductive ModifiersEnd (isWord takesSet : Item → Bool) : List Item → List Item → Prop
  | stop {ts : List Item} (h : next isWord ts = false) : ModifiersEnd isWord takesSet ts ts
  | word {word : Item} {us rest : List Item} (hword : isWord word)
    (hset : takesSet word → startsSet us = false) (h : ModifiersEnd isWord takesSet us rest) :
    ModifiersEnd isWord takesSet (word :: us) rest
  | setter {word opening inner closing : Item} {us rest : List Item} (hword : isWord word)
    (htakes : takesSet word) (hset : startsSet (opening :: inner :: closing :: us))
    (hclosing : isMark .parenClose closing) (h : ModifiersEnd isWord takesSet us rest) :
    ModifiersEnd isWord takesSet (word :: opening :: inner :: closing :: us) rest

/-- Whether an item modifies a member. -/
def modifiesMember (i : Item) : Bool :=
  i.kind.isModifier

/-- Whether an item is a visibility, which `(set)` may follow. -/
def isVisibility (i : Item) : Bool :=
  (visibility? i.kind).isSome

/-- Whether an item modifies a class. -/
def modifiesClass (i : Item) : Bool :=
  isKeyword .kwAbstract i || isKeyword .kwFinal i || isKeyword .kwReadonly i

theorem ModifiersEnd.suffix {isWord takesSet : Item → Bool} {ts rest : List Item}
    (h : ModifiersEnd isWord takesSet ts rest) : rest <:+ ts := by
  induction h with
  | stop => exact List.suffix_rfl
  | word _ _ _ ih => exact ih.trans (List.suffix_cons _ _)
  | @setter word opening inner closing us rest _ _ _ _ _ ih =>
    exact ih.trans (List.suffix_append [word, opening, inner, closing] us)

/-- **There is one end of modifiers.** -/
theorem ModifiersEnd.unique {isWord takesSet : Item → Bool} {ts rest rest' : List Item}
    (h : ModifiersEnd isWord takesSet ts rest) (h' : ModifiersEnd isWord takesSet ts rest') :
    rest = rest' := by
  induction h with
  | stop hstop =>
    cases h' with
    | stop => rfl
    | word hword => exact absurd hword (by simpa [next] using hstop)
    | setter hword => exact absurd hword (by simpa [next] using hstop)
  | word hword hset _ ih =>
    cases h' with
    | stop hstop => exact absurd hword (by simpa [next] using hstop)
    | word _ _ hrest' => exact ih hrest'
    | setter _ htakes hset' => exact absurd hset' (by simp [hset htakes])
  | setter hword htakes hset _ _ ih =>
    cases h' with
    | stop hstop => exact absurd hword (by simpa [next] using hstop)
    | word _ hset' _ => exact absurd hset (by simp [hset' htakes])
    | setter _ _ _ _ hrest' => exact ih hrest'

theorem skip_gives (t : Item) (us : List Item) :
    Gives (Reading.skip (fun _ => true) (t :: us) : Read Bool (t :: us)) fun _ vs => vs = us :=
  fun _ _ => rfl

theorem expectMark_gives (env : Env) (mark : Source.Mark) (ts : List Item) :
    Gives (expectMark env mark ts) fun _ us => ∃ i, ts = i :: us ∧ isMark mark i :=
  Gives.map (gives_onNext_cases (fun t _ _ hts ht => gives_done ⟨t, hts, ht⟩) fun _ => nofun)

/-- `(set)` is passed over where it stands, and nothing else is. -/
theorem readSet_gives (env : Env) (ts : List Item) :
    Gives (readSet env ts) fun _ us => (us = ts ∧ startsSet ts = false) ∨
      ∃ opening inner closing, ts = opening :: inner :: closing :: us ∧ startsSet ts = true ∧
        isMark .parenClose closing := by
  rw [readSet]
  split
  · next hset =>
    have hparts := hset
    simp only [startsSet, Bool.and_eq_true] at hparts
    obtain ⟨hopening, hinner⟩ := hparts
    rcases ts with _ | ⟨opening, _ | ⟨inner, us⟩⟩
    · cases hopening
    · cases hinner
    · refine (skip_gives opening (inner :: us)).andThen fun _ vs _ _ hvs => ?_
      subst hvs
      refine (skip_gives inner us).andThen fun _ ws _ _ hws => ?_
      subst hws
      refine Gives.map fun _ ha => ?_
      obtain ⟨closing, hus, hclosing⟩ := expectMark_gives env .parenClose ws _ ha
      refine .inr ⟨opening, inner, closing, ?_, hset, hclosing⟩
      exact congrArg (opening :: inner :: ·) hus
  · next hset => exact gives_done (.inl ⟨rfl, by simpa using hset⟩)

/-- **Passing over the modifiers of a member** stops behind the last of them. -/
theorem readModifiers_gives (env : Env) (m : Modifiers) (ts : List Item) :
    Gives (readModifiers env m ts) fun _ us => ModifiersEnd modifiesMember isVisibility ts us := by
  unfold readModifiers
  refine gives_onNext_cases (fun t us lt hts ht => ?_) fun hnext => gives_done (.stop hnext)
  split
  · next v hv =>
    have hvisible : isVisibility t = true := by rw [isVisibility, hv]; rfl
    refine (readSet_gives env us).andThen fun _ vs le _ hset a ha => ?_
    have hlt : vs.length < ts.length := by omega
    have hrest := readModifiers_gives env _ vs a ha
    rcases hset with ⟨rfl, hnone⟩ | ⟨opening, inner, closing, rfl, hset, hclosing⟩
    · exact hts ▸ .word ht (fun _ => hnone) hrest
    · exact hts ▸ .setter ht hvisible hset hclosing hrest
  · next hv =>
    have hvisible : ¬isVisibility t = true := by rw [isVisibility, hv]; exact Bool.false_ne_true
    exact fun a ha =>
      hts ▸ .word ht (fun h => absurd h hvisible) (readModifiers_gives env _ us a ha)
termination_by ts.length
decreasing_by all_goals omega

/-- **Passing over the modifiers of a class** stops behind the last of them. -/
theorem readClassModifiers_gives (m : ClassModifiers) (ts : List Item) :
    Gives (readClassModifiers m ts) fun _ us =>
      ModifiersEnd modifiesClass (fun _ => false) ts us := by
  induction ts generalizing m with
  | nil => exact gives_done (.stop rfl)
  | cons t us ih =>
    have hword : ∀ m', modifiesClass t = true → Gives (readClassModifiers m' us) fun _ vs =>
        ModifiersEnd modifiesClass (fun _ => false) (t :: us) vs := fun m' ht a ha =>
      .word ht nofun (ih m' a ha)
    rw [readClassModifiers]
    split
    · next hkind => exact hword _ (by simp [modifiesClass, isKeyword, hkind])
    · next hkind => exact hword _ (by simp [modifiesClass, isKeyword, hkind])
    · next hkind => exact hword _ (by simp [modifiesClass, isKeyword, hkind])
    · next habstract hfinal hreadonly =>
      refine gives_done (.stop ?_)
      simpa [next, modifiesClass, isKeyword] using ⟨⟨habstract, hfinal⟩, hreadonly⟩

end PhpHandbook.Declaration
