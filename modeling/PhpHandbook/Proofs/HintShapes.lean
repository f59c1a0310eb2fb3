import PhpHandbook.Proofs.BodyStops
import PhpHandbook.Proofs.Layout
import PhpHandbook.Proofs.TypeNames

/-!
# The shapes of native types

A native type of a file is a name, a nullable name, an intersection of names, or a union of names
and intersections, and nothing else: nothing is nested deeper.  All its names read again.  A name
that would not has a separator behind it, and there is nothing that goes on behind a type with a
separator, so no file with such a type is read without faults.

## Main definitions

* `SourceFile.hints`, `TypeHint.parts`: the types in a file, and the types that a type is made of.
* `TypeHint.IsSingle`, `TypeHint.IsJoined`, `TypeHint.IsWhole`: the shapes of types.

## Main statements

* `readHint_gives`: a type that is read is whole, or a separator follows.
* `parse_hints`: every type in a file is whole.
-/

namespace PhpHandbook.Declaration

open Source (Span Keyword Mark ReadsAgain)
open Reading (yields_true yields_done yields_fail yields_onNext)

/-! ### The types in a file -/

/-- The types in a method: those of its parameters, and the one it returns. -/
def Method.hints (m : Method) : List TypeHint :=
  m.params.flatMap (·.type.toList) ++ m.returnType.toList

/-- The types in the body of a class. -/
def Members.hints (ms : Members) : List TypeHint :=
  ms.constants.flatMap (·.type.toList) ++ ms.properties.flatMap (·.type.toList)
    ++ ms.methods.flatMap Method.hints

/-- The types in a class. -/
def ClassLike.hints (c : ClassLike) : List TypeHint :=
  c.backingType.toList ++ c.toMembers.hints

mutual

/-- **A type and the types it is made of.** -/
def TypeHint.parts : TypeHint → List TypeHint
  | .named name span => [.named name span]
  | .nullable inner span => .nullable inner span :: inner.parts
  | .union members span => .union members span :: TypeHint.partsOfAll members
  | .intersection members span => .intersection members span :: TypeHint.partsOfAll members

/-- The types that several types are made of. -/
def TypeHint.partsOfAll : List TypeHint → List TypeHint
  | [] => []
  | t :: ts => t.parts ++ TypeHint.partsOfAll ts

end

/-- **The types that occur in a file**, with the types that they are made of. -/
def SourceFile.hints (f : SourceFile) : List TypeHint :=
  (f.classes.flatMap ClassLike.hints).flatMap TypeHint.parts

/-! ### Shapes -/

namespace TypeHint

/-- **A name** that reads again. -/
def IsSingle : TypeHint → Prop
  | .named name _ => ReadsAgain name.written.toList ∧
      ∀ span, Same (Name.ofText name.written span) name
  | _ => False

/-- A name, or **an intersection** of names. -/
def IsJoined : TypeHint → Prop
  | .intersection members _ => 2 ≤ members.length ∧ ∀ t ∈ members, t.IsSingle
  | t => t.IsSingle

/-- **A whole type**: a name, a nullable name, an intersection of names, or a union of names and
intersections. -/
def IsWhole : TypeHint → Prop
  | .nullable inner _ => inner.IsSingle
  | .union members _ => 2 ≤ members.length ∧ ∀ t ∈ members, t.IsJoined
  | t => t.IsJoined

theorem IsSingle.joined {t : TypeHint} (h : t.IsSingle) : t.IsJoined := by
  cases t with
  | intersection => exact h.elim
  | _ => exact h

theorem IsJoined.whole {t : TypeHint} (h : t.IsJoined) : t.IsWhole := by
  cases t with
  | named => exact h
  | intersection => exact h
  | _ => exact h.elim

theorem IsJoined.withSpan {t : TypeHint} (h : t.IsJoined) (span : Span) :
    (t.withSpan span).IsJoined := by
  cases t with
  | named => exact h
  | intersection => exact h
  | _ => exact h.elim

theorem partsOfAll_eq (ts : List TypeHint) : partsOfAll ts = ts.flatMap parts := by
  induction ts with
  | nil => rfl
  | cons t ts ih => rw [partsOfAll, ih, List.flatMap_cons]

theorem IsSingle.parts {t : TypeHint} (h : t.IsSingle) : ∀ u ∈ t.parts, u.IsSingle := by
  cases t with
  | named => simpa [TypeHint.parts] using h
  | _ => exact h.elim

theorem IsJoined.parts {t : TypeHint} (h : t.IsJoined) : ∀ u ∈ t.parts, u.IsJoined := by
  cases t with
  | named => simpa [TypeHint.parts] using h
  | intersection members span =>
    rw [TypeHint.parts, partsOfAll_eq, List.forall_mem_cons]
    refine ⟨h, fun u hu => ?_⟩
    obtain ⟨t, ht, hu⟩ := List.mem_flatMap.1 hu
    exact ((h.2 t ht).parts u hu).joined
  | _ => exact h.elim

/-- What a whole type is made of is whole. -/
theorem IsWhole.parts {t : TypeHint} (h : t.IsWhole) : ∀ u ∈ t.parts, u.IsWhole := by
  cases t with
  | nullable inner span =>
    rw [TypeHint.parts, List.forall_mem_cons]
    exact ⟨h, fun u hu => (IsSingle.parts h u hu).joined.whole⟩
  | union members span =>
    rw [TypeHint.parts, partsOfAll_eq, List.forall_mem_cons]
    refine ⟨h, fun u hu => ?_⟩
    obtain ⟨t, ht, hu⟩ := List.mem_flatMap.1 hu
    exact ((h.2 t ht).parts u hu).whole
  | named => exact fun u hu => (@IsJoined.parts (.named _ _) h u hu).whole
  | intersection => exact fun u hu => (@IsJoined.parts (.intersection _ _) h u hu).whole

end TypeHint

/-! ### Readings that fail -/

/-- A reading that **fails**. -/
def Refuses {ε α : Type} {ts : List Item} (r : Reading Item ε α ts) : Prop :=
  ∀ a, r.outcome ≠ .ok a

section Refuses

variable {ε α β : Type} {ts : List Item} {r : Reading Item ε α ts}

theorem Refuses.gives (h : Refuses r) {P : α → List Item → Prop} : Gives r P :=
  fun a ha => absurd ha (h a)

theorem Refuses.map (h : Refuses r) (f : α → β) : Refuses (r.map f) := by
  intro b hb
  obtain ⟨a, ha, -⟩ := Reading.outcome_map_eq_ok_iff.1 hb
  exact h a ha

theorem Refuses.mapError {ε' : Type} (h : Refuses r) (f : ε → ε') : Refuses (r.mapError f) :=
  fun a ha => h a (Reading.outcome_mapError_eq_ok_iff.1 ha)

theorem Refuses.andThen (h : Refuses r)
    (next : α → (us : List Item) → us.length ≤ ts.length → Reading Item ε β us) :
    Refuses (r.andThen next) := by
  intro b hb
  obtain ⟨a, ha, -⟩ := Reading.outcome_andThen_eq_ok hb
  exact h a ha

/-- Nothing is taken where something else stands. -/
theorem refuses_expect {p : Item → Bool} {reason : List Item → ε} (h : next p ts = false) :
    Refuses (Reading.expect p reason ts) := by
  intro a ha
  cases ts with
  | nil => cases ha
  | cons t us =>
    have ht : ¬p t = true := by simpa [next] using h
    rw [Reading.expect, Reading.onNext, if_neg ht] at ha
    cases ha

end Refuses

/-! ### In front of a separator -/

section Separator

variable {env : Env} {ts : List Item}

/-- What follows is **a lone separator**. -/
def AtSeparator (ts : List Item) : Prop :=
  next (isMark .backslash) ts = true

/-- What the next item is tells what it is not. -/
theorem next_eq_false {p q : Item → Bool} (h : next q ts = true)
    (hp : ∀ i, q i = true → p i = false) :
    next p ts = false := by
  cases ts with
  | nil => rfl
  | cons t us => exact hp t (by simpa [next] using h)

theorem AtSeparator.next_eq {p : Item → Bool} (h : AtSeparator ts)
    (hp : ∀ i, isMark .backslash i = true → p i = false) : next p ts = false :=
  next_eq_false h hp

/-- An item is one mark. -/
theorem isMark_of_ne {mark other : Mark} (hmark : mark ≠ other) (i : Item)
    (h : isMark other i = true) :
    isMark mark i = false := by
  rw [isMark, beq_iff_eq] at h
  rw [isMark, h, beq_eq_false_iff_ne]
  exact fun hkind => hmark (Source.TokenKind.mark.inj hkind).symm

theorem AtSeparator.refuses_expectMark (h : AtSeparator ts) {mark : Mark}
    (hmark : mark ≠ .backslash) :
    Refuses (expectMark env mark ts) :=
  (refuses_expect (h.next_eq (isMark_of_ne hmark))).map _

/-- A reading that gives what is wanted, or stops at a separator, with another one behind it that
goes on with the former and fails at the latter. -/
theorem Gives.andThen_or_refuses {α β : Type} {r : Read α ts} {Q : α → Prop} {P : β → Prop}
    {next : α → (us : List Item) → us.length ≤ ts.length → Read β us}
    (hr : Gives r fun a us => Q a ∨ AtSeparator us)
    (hgoesOn : ∀ a us le, us <:+ ts → Q a → (next a us le).Yields P)
    (hrefuses : ∀ a us le, AtSeparator us → Refuses (next a us le)) :
    (r.andThen next).Yields P := by
  refine @Gives.andThen _ _ _ _ _ _ (fun b _ => P b) _ hr fun a us le hus ha => ?_
  rcases ha with ha | hseparator
  · exact hgoesOn a us le hus ha
  · exact (hrefuses a us le hseparator).gives

theorem AtSeparator.onNext_eq {α : Type} {p : Item → Bool} (h : AtSeparator ts)
    (hp : ∀ i, isMark .backslash i = true → p i = false)
    (yes : Item → (us : List Item) → us.length < ts.length → Read α us) (no : Read α ts) :
    Reading.onNext p ts yes no = no := by
  cases ts with
  | nil => rfl
  | cons t us => exact if_neg (by simpa [next] using h.next_eq hp)

end Separator

/-! ### Reading types -/

section Hints

variable {env : Env} {ts : List Item}

theorem readSingleHint_gives (h : ItemsReadAgain ts) :
    Gives (readSingleHint env ts) fun t us => t.IsSingle ∨ AtSeparator us := by
  refine Gives.map (gives_onNext_cases (fun i us _ hts hi => gives_done ?_) nofun)
  subst hts
  refine (h.1 hi).imp_left fun hagain => ⟨?_, fun span => ?_⟩
  · rwa [Name.written_ofText]
  · rw [Name.written_ofText]
    exact Same.ofText _ _ _

theorem AtSeparator.readMoreJoined_eq (h : AtSeparator ts) : readMoreJoined env ts = .done [] := by
  have hjoins : joinsHints ts = false := by
    rw [joinsHints, h.next_eq (isMark_of_ne (by decide)), Bool.false_and]
  rw [readMoreJoined, hjoins]
  rfl

theorem AtSeparator.readMoreUnited_eq (h : AtSeparator ts) : readMoreUnited env ts = .done [] := by
  rw [readMoreUnited]
  exact h.onNext_eq (isMark_of_ne (by decide)) _ _

/-- More members of an intersection are names. -/
theorem readMoreJoined_gives (ts : List Item) (h : ItemsReadAgain ts) :
    Gives (readMoreJoined env ts) fun more us => (∀ t ∈ more, t.IsSingle) ∨
      AtSeparator us := by
  unfold readMoreJoined
  split
  · refine gives_onNext (fun _ us _ hus => ?_) (gives_done (.inl (by simp)))
    refine (readSingleHint_gives (h.suffix hus)).andThen fun t vs _ hvs ht => ?_
    rcases ht with ht | hseparator
    · refine Gives.map fun more hmore => ?_
      exact (readMoreJoined_gives vs (h.suffix (hvs.trans hus)) more hmore).imp_left
        fun hmore => List.forall_mem_cons.2 ⟨ht, hmore⟩
    · rw [hseparator.readMoreJoined_eq]
      exact Gives.map (gives_done (.inr hseparator))
  · exact gives_done (.inl (by simp))
termination_by ts.length
decreasing_by omega

theorem readIntersection_gives (h : ItemsReadAgain ts) (start : Span) :
    Gives (readIntersection env start ts) fun t us => t.IsJoined ∨ AtSeparator us := by
  refine (readSingleHint_gives h).andThen fun first us _ hus hfirst => ?_
  rcases hfirst with hfirst | hseparator
  · refine Gives.map fun more hmore => ?_
    refine (readMoreJoined_gives us (h.suffix hus) more hmore).imp_left fun hmore => ?_
    cases more with
    | nil => exact hfirst.joined
    | cons t more =>
      exact ⟨Nat.le_add_left 2 more.length, List.forall_mem_cons.2 ⟨hfirst, hmore⟩⟩
  · rw [hseparator.readMoreJoined_eq]
    exact Gives.map (gives_done (.inr hseparator))

theorem readGroup_gives (h : ItemsReadAgain ts) :
    Gives (readGroup env ts) fun t us => t.IsJoined ∨ AtSeparator us := by
  refine gives_onNext (fun opening us _ hus => ?_) (readIntersection_gives h _)
  refine (readIntersection_gives (h.suffix hus) _).andThen fun inner vs _ _ hinner => ?_
  rcases hinner with hinner | hseparator
  · exact Gives.map fun _ _ => .inl (hinner.withSpan _)
  · exact ((hseparator.refuses_expectMark (by decide)).map _).gives

/-- More members of a union are names and intersections. -/
theorem readMoreUnited_gives (ts : List Item) (h : ItemsReadAgain ts) :
    Gives (readMoreUnited env ts) fun more us => (∀ t ∈ more, t.IsJoined) ∨
      AtSeparator us := by
  unfold readMoreUnited
  refine gives_onNext (fun _ us _ hus => ?_) (gives_done (.inl (by simp)))
  refine (readGroup_gives (h.suffix hus)).andThen fun t vs _ hvs ht => ?_
  rcases ht with ht | hseparator
  · refine Gives.map fun more hmore => ?_
    exact (readMoreUnited_gives vs (h.suffix (hvs.trans hus)) more hmore).imp_left
      fun hmore => List.forall_mem_cons.2 ⟨ht, hmore⟩
  · rw [hseparator.readMoreUnited_eq]
    exact Gives.map (gives_done (.inr hseparator))
termination_by ts.length
decreasing_by omega

/-- **A type that is read is whole**, or a separator follows. -/
theorem readHint_gives (h : ItemsReadAgain ts) :
    Gives (readHint env ts) fun t us => t.IsWhole ∨ AtSeparator us := by
  refine gives_onNext (fun _ us _ hus => Gives.map (readSingleHint_gives (h.suffix hus))) ?_
  refine (readGroup_gives h).andThen fun first us _ hus hfirst => ?_
  rcases hfirst with hfirst | hseparator
  · refine Gives.map fun more hmore => ?_
    refine (readMoreUnited_gives us (h.suffix hus) more hmore).imp_left fun hmore => ?_
    cases more with
    | nil => exact hfirst.whole
    | cons t more =>
      exact ⟨Nat.le_add_left 2 more.length, List.forall_mem_cons.2 ⟨hfirst, hmore⟩⟩
  · rw [hseparator.readMoreUnited_eq]
    exact Gives.map (gives_done (.inr hseparator))

theorem readHintIf_gives (h : ItemsReadAgain ts) (wanted : Bool) :
    Gives (readHintIf env wanted ts) fun type us => (∀ t ∈ type, t.IsWhole) ∨
      AtSeparator us := by
  rw [readHintIf]
  split
  · exact Gives.map fun t ht => (readHint_gives h t ht).imp_left fun ht => by simpa using ht
  · exact gives_done (.inl (by simp))

theorem readReturnHint_gives (h : ItemsReadAgain ts) :
    Gives (readReturnHint env ts) fun type us => (∀ t ∈ type, t.IsWhole) ∨
      AtSeparator us := by
  refine gives_onNext (fun _ us _ hus => ?_) (gives_done (.inl (by simp)))
  exact Gives.map fun t ht => (readHint_gives (h.suffix hus) t ht).imp_left fun ht => by
    simpa using ht

/-! ### Behind types -/

theorem refuses_readConstantList (h : AtSeparator ts) (make : Ident → String → Constant) :
    Refuses (readConstantList env make ts) := by
  have hname : Refuses (readMemberName env ts) := by
    refine (refuses_expect (h.next_eq fun i hi => ?_)).map _
    rw [isMark, beq_iff_eq] at hi
    rw [hi]
    rfl
  rw [readConstantList]
  exact hname.andThen _

theorem refuses_readVariable (h : AtSeparator ts) : Refuses (readVariable env ts) := by
  refine (refuses_expect (h.next_eq fun i hi => ?_)).map _
  rw [isMark, beq_iff_eq] at hi
  rw [isKind, hi]
  rfl

theorem refuses_readPropertyList (h : AtSeparator ts)
    (make : Ident → Option String → Bool → Property) :
    Refuses (readPropertyList env make ts) := by
  rw [readPropertyList]
  exact (refuses_readVariable h).andThen _

theorem skipMark_of_separator (h : AtSeparator ts) {mark : Mark} (hmark : mark ≠ .backslash) :
    skipMark mark ts = .done false :=
  h.onNext_eq (isMark_of_ne hmark) _ _

theorem refuses_readMethodEnd (h : AtSeparator ts) : Refuses (readMethodEnd env ts) := by
  have hnext : next (isMark .braceOpen) ts = false := h.next_eq (isMark_of_ne (by decide))
  rw [readMethodEnd, hnext]
  exact ((h.refuses_expectMark (by decide)).mapError _).map _

theorem readNamesAfter_of_separator (h : AtSeparator ts) (word : Keyword) :
    readNamesAfter env word ts = .done [] := by
  refine h.onNext_eq (fun i hi => ?_) _ _
  rw [isMark, beq_iff_eq] at hi
  rw [isKeyword, hi]
  rfl

/-! ### Reading members -/

theorem readConstantList_yields {make : Ident → String → Constant} {Q : Constant → Prop}
    (hmake : ∀ name value, Q (make name value)) (ts : List Item) :
    (readConstantList env make ts).Yields fun cs => ∀ c ∈ cs, Q c := by
  unfold readConstantList
  refine (yields_true _).andThen fun name us _ _ _ => ?_
  refine yields_onNext (fun _ vs _ _ _ _ => ?_) (yields_fail _)
  refine (yields_true _).andThen fun value ws _ _ _ => ?_
  refine yields_onNext (fun _ xs _ _ _ _ => ?_) (yields_done (by simpa using hmake name value))
  exact (readConstantList_yields hmake xs).map fun _ hmore =>
    List.forall_mem_cons.2 ⟨hmake name value, hmore⟩
termination_by ts.length
decreasing_by omega

theorem readPropertyList_yields {make : Ident → Option String → Bool → Property}
    {Q : Property → Prop} (hmake : ∀ name fallback hasHooks, Q (make name fallback hasHooks))
    (ts : List Item) :
    (readPropertyList env make ts).Yields fun ps => ∀ p ∈ ps, Q p := by
  unfold readPropertyList
  refine (yields_true _).andThen fun name us _ _ _ => ?_
  refine (yields_true _).andThen fun fallback vs _ _ _ => ?_
  refine (yields_true _).andThen fun hasHooks ws _ _ _ => ?_
  have hmade := hmake name fallback hasHooks
  dsimp only
  split
  · exact yields_done (by simpa using hmade)
  · refine yields_onNext (fun _ xs _ _ _ _ => ?_)
      ((yields_true _).map fun _ _ => by simpa using hmade)
    exact (readPropertyList_yields hmake xs).map fun _ hmore =>
      List.forall_mem_cons.2 ⟨hmade, hmore⟩
termination_by ts.length
decreasing_by omega

variable {modifiers : Modifiers} {doc : Option Comment} {start : Span}

theorem readConstants_hints (h : ItemsReadAgain ts) :
    (readConstants env modifiers doc start ts).Yields fun cs =>
      ∀ c ∈ cs, ∀ t ∈ c.type, t.IsWhole := by
  refine (yields_true _).andThen fun _ us _ hus _ => ?_
  refine (readHintIf_gives (h.suffix hus) _).andThen_or_refuses (fun type vs _ _ htype => ?_)
    fun _ _ _ hseparator => (refuses_readConstantList hseparator _).andThen _
  refine (readConstantList_yields (Q := fun c => ∀ t ∈ c.type, t.IsWhole)
    (fun _ _ => htype) vs).andThen fun cs _ _ _ hcs => ?_
  exact (yields_true _).map fun _ _ => hcs

theorem readProperties_hints (h : ItemsReadAgain ts) :
    (readProperties env modifiers doc start ts).Yields fun ps =>
      ∀ p ∈ ps, ∀ t ∈ p.type, t.IsWhole :=
  (readHintIf_gives h _).andThen_or_refuses
    (fun _ us _ _ htype => readPropertyList_yields (fun _ _ _ => htype) us)
    fun _ _ _ hseparator => refuses_readPropertyList hseparator _

theorem readParam_hints (h : ItemsReadAgain ts) :
    (readParam env ts).Yields fun p => ∀ t ∈ p.type, t.IsWhole := by
  refine (yields_true _).andThen fun _ us _ hus _ => ?_
  refine (yields_true _).andThen fun modifiers vs _ hvs _ => ?_
  refine (readHintIf_gives (h.suffix (hvs.trans hus)) _).andThen_or_refuses
    (fun type ws _ _ htype => ?_) fun type ws _ hseparator => ?_
  · refine (yields_true _).andThen fun _ _ _ _ _ => ?_
    refine (yields_true _).andThen fun _ _ _ _ _ => ?_
    refine (yields_true _).andThen fun _ _ _ _ _ => ?_
    refine (yields_true _).andThen fun _ _ _ _ _ => ?_
    exact (yields_true _).map fun _ _ => htype
  · rw [skipMark_of_separator hseparator (by decide), Reading.done_andThen,
      skipMark_of_separator hseparator (by decide), Reading.done_andThen]
    exact (refuses_readVariable hseparator).andThen _

theorem readParamList_hints (ts : List Item) (h : ItemsReadAgain ts) :
    (readParamList env ts).Yields fun ps => ∀ p ∈ ps, ∀ t ∈ p.type, t.IsWhole := by
  unfold readParamList
  split
  · exact yields_done (by simp)
  · refine (readParam_hints h).andThen fun p us _ hus hp => ?_
    refine yields_onNext (fun _ vs _ _ hvs _ => ?_) (yields_done (by simpa using hp))
    exact (readParamList_hints vs (h.suffix (hvs.trans hus))).map fun _ hmore =>
      List.forall_mem_cons.2 ⟨hp, hmore⟩
termination_by ts.length
decreasing_by omega

theorem readMethod_hints (h : ItemsReadAgain ts) :
    (readMethod env modifiers doc start ts).Yields fun m => ∀ t ∈ m.hints, t.IsWhole := by
  refine (yields_true _).andThen fun _ us _ hus _ => ?_
  refine (yields_true _).andThen fun _ vs _ hvs _ => ?_
  refine (yields_true _).andThen fun name ws _ hws _ => ?_
  have hws : ItemsReadAgain ws := h.suffix (hws.trans (hvs.trans hus))
  have hparams : (readParams env ws).Yields fun ps =>
      ∀ p ∈ ps, ∀ t ∈ p.type, t.IsWhole := by
    refine (yields_true _).andThen fun _ xs _ hxs _ => ?_
    refine (readParamList_hints xs (hws.suffix hxs)).andThen fun _ _ _ _ hps => ?_
    exact (yields_true _).map fun _ _ => hps
  refine hparams.andThen fun params xs _ hxs hps => ?_
  refine (readReturnHint_gives (hws.suffix hxs)).andThen_or_refuses (fun type ys _ _ htype => ?_)
    fun _ _ _ hseparator => (refuses_readMethodEnd hseparator).map _
  refine (yields_true _).map fun _ _ t ht => ?_
  rcases List.mem_append.1 ht with ht | ht
  · obtain ⟨p, hp, ht⟩ := List.mem_flatMap.1 ht
    exact hps p hp t (Option.mem_toList.1 ht)
  · exact htype t (Option.mem_toList.1 ht)

/-! ### The types of a class -/

theorem Members.mem_hints_add {ms : Members} {m : Member} {t : TypeHint} :
    t ∈ (ms.add m).hints ↔ t ∈ ms.hints ∨ t ∈ (Members.add {} m).hints := by
  cases m with
  | nothing => simp [Members.add, Members.hints]
  | traitUse use => simp [Members.add, Members.hints]
  | case c => simp [Members.add, Members.hints]
  | constants cs =>
    simp only [Members.add, Members.hints, List.flatMap_append, List.mem_append, List.flatMap_nil,
      List.not_mem_nil, or_false, false_or]
    tauto
  | properties ps =>
    simp only [Members.add, Members.hints, List.flatMap_append, List.mem_append, List.flatMap_nil,
      List.not_mem_nil, or_false, false_or]
    tauto
  | method m =>
    simp only [Members.add, Members.hints, List.flatMap_append, List.mem_append, List.flatMap_nil,
      List.not_mem_nil, or_false, false_or]
    tauto

/-- All types that one statement in the body of a class adds are whole. -/
def Member.HintsWhole (m : Member) : Prop :=
  ∀ t ∈ (Members.add {} m).hints, t.IsWhole

theorem readModified_hints (h : ItemsReadAgain ts) :
    (readModified env doc start ts).Yields Member.HintsWhole := by
  refine (yields_true _).andThen fun _ us _ hus _ => ?_
  have hus : ItemsReadAgain us := h.suffix hus
  dsimp only
  split
  · refine (readConstants_hints hus).map fun cs hcs t ht => ?_
    obtain ⟨c, hc, ht⟩ : ∃ c ∈ cs, c.type = some t := by
      simpa [Members.add, Members.hints] using ht
    exact hcs c hc t ht
  split
  · refine (readMethod_hints hus).map fun m hm t ht => hm t ?_
    simpa [Members.add, Members.hints] using ht
  · refine (readProperties_hints hus).map fun ps hps t ht => ?_
    obtain ⟨p, hp, ht⟩ : ∃ p ∈ ps, p.type = some t := by
      simpa [Members.add, Members.hints] using ht
    exact hps p hp t ht

/-- **One statement** in the body of a class. -/
theorem readMember_hints (h : ItemsReadAgain ts) :
    (readMember env ts).Yields Member.HintsWhole := by
  have hnone {m : Member} (hm : (Members.add {} m).hints = []) : m.HintsWhole := fun t ht => by
    rw [hm] at ht
    cases ht
  refine yields_onNext (fun _ _ _ _ _ _ => yields_done (hnone rfl)) ?_
  dsimp only
  split
  · exact (yields_true _).map fun _ _ => hnone rfl
  · refine (yields_true _).andThen fun _ us _ hus _ => ?_
    split
    · exact (yields_true _).map fun _ _ => hnone rfl
    · exact readModified_hints (h.suffix hus)

theorem readBody_hints (h : ItemsReadAgain ts) :
    (readBody env {} ts).Yields fun r => ∀ t ∈ r.1.hints, t.IsWhole := by
  refine @readBody_keeps env ItemsReadAgain (fun ms => ∀ t ∈ ms.hints, t.IsWhole)
    (fun h hvs => h.suffix hvs) (fun {us ms m} hus hms hm t ht => ?_) {} nofun ts h
  exact (Members.mem_hints_add.1 ht).elim (hms t) (readMember_hints hus m hm t)

theorem readHeader_hints (h : ItemsReadAgain ts) :
    (readHeader env ts).Yields fun c => ∀ t ∈ c.backingType, t.IsWhole := by
  refine (yields_true _).andThen fun _ us _ hus _ => ?_
  refine (yields_true _).andThen fun _ vs _ hvs _ => ?_
  refine (yields_true _).andThen fun kind ws _ hws _ => ?_
  refine (yields_true _).andThen fun _ xs _ hxs _ => ?_
  have hxs : ItemsReadAgain xs := h.suffix (hxs.trans (hws.trans (hvs.trans hus)))
  have hbacking : Gives (if kind = .enum then readReturnHint env xs else .done none) fun type us =>
      (∀ t ∈ type, t.IsWhole) ∨ AtSeparator us := by
    split
    · exact readReturnHint_gives hxs
    · exact gives_done (.inl (by simp))
  refine hbacking.andThen_or_refuses (fun type ys _ _ htype => ?_) fun type ys _ hseparator => ?_
  · refine (yields_true _).andThen fun _ _ _ _ _ => ?_
    refine (yields_true _).andThen fun _ _ _ _ _ => ?_
    exact (yields_true _).map fun _ _ => htype
  · rw [readNamesAfter_of_separator hseparator, Reading.done_andThen,
      readNamesAfter_of_separator hseparator, Reading.done_andThen]
    exact (hseparator.refuses_expectMark (by decide)).map _

theorem readClass_hints (h : ItemsReadAgain ts) :
    (readClass env ts).Yields fun r => ∀ t ∈ r.1.hints, t.IsWhole := by
  refine ((readHeader_hints h).mapError _).andThen fun header us _ hus hheader => ?_
  refine ((readBody_hints (h.suffix hus)).mapError _).andThen fun r _ _ _ hmembers => ?_
  refine (yields_true _).map fun _ _ t ht => ?_
  rcases List.mem_append.1 ht with ht | ht
  · exact hheader t (Option.mem_toList.1 ht)
  · exact hmembers t ht

end Hints

/-! ### Files -/

/-- Statements keep the types of classes whole. -/
theorem statementsKeep_hints (env : Env) :
    StatementsKeep env
      (fun ts cs => ItemsReadAgain ts ∧ ∀ c ∈ cs, ∀ t ∈ c.hints, t.IsWhole)
      fun _ => True := by
  refine statementsKeep_of_classes (fun h hvs => ⟨h.1.suffix hvs, h.2⟩)
    fun {us cs r} h hread => ?_
  have hr := readClass_hints h.1 r hread
  exact ⟨h.1.suffix (readClass env us).suffix,
    List.forall_mem_append.2 ⟨h.2, by simpa using hr⟩⟩

/-- **Every type in a file is whole.** -/
theorem parse_hints {source : List Char} {file : SourceFile}
    (h : (parse source).outcome = .ok file) : ∀ t ∈ file.hints, t.IsWhole := by
  obtain ⟨ts, comments, eof, hitems⟩ := exists_items source
  have hfile := (statementsKeep_hints ⟨source, eof⟩).parse hitems
    ⟨itemsReadAgain_tokenize hitems, by simp⟩
  rw [h] at hfile
  obtain ⟨us, -, hclasses⟩ := hfile
  intro t ht
  obtain ⟨u, hu, ht⟩ := List.mem_flatMap.1 ht
  obtain ⟨c, hc, hu⟩ := List.mem_flatMap.1 hu
  exact (hclasses c hc u hu).parts t ht

end PhpHandbook.Declaration
