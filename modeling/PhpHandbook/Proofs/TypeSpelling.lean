import PhpHandbook.DocBlock.TypeReader
import PhpHandbook.Proofs.Relexing

/-!
# The words in a type that was read

Every name, number and key in a type that was read is one lexeme of the text it was read from, and
the lists in it have the lengths that the grammar asks for: a generic type has arguments, a union
and an intersection have at least two members.

## Main definitions

* `TypeExpr.parts`: the types that a type is directly made of.
* `TypeExpr.Everywhere`: what holds of a type and of all types in it.
* `TypeExpr.Spelled`: the words at one place of a type are lexemes.

## Main statements

* `readType_spelled`: types that are read are spelled with lexemes everywhere.
-/

namespace PhpHandbook.DocBlock

open Source (isNameStart)
open Text (run)

/-! ### Words -/

/-- A text that is one identifier. -/
def IsIdentifier (name : String) : Prop :=
  IsLexeme .identifier name.toList

/-- A word without separators is one identifier. -/
theorem isIdentifier_of_parts {name : String} {c : Char} {cs : List Char}
    (hname : name.toList = c :: cs) (hc : isNameStart c = true)
    (hcs : cs.all isIdentifierPart = true) : IsIdentifier name := by
  have hgap : isGap c = false := by
    by_contra hgap
    simp only [isGap, Bool.not_eq_false, Bool.or_eq_true, beq_iff_eq] at hgap
    rcases hgap with ((rfl | rfl) | rfl) | rfl <;> cases hc
  have hrun : run isIdentifierPart cs = cs.length := by
    rw [run, List.takeWhile_eq_self_iff.2 (by simpa using hcs)]
  refine ⟨c, cs, hname, hgap, ?_⟩
  rw [List.append_nil, munch_name hc, identifierTail, hrun, List.drop_length]
  simp [identifierSegments]

/-- A text that is one variable, with its dollar sign. -/
def IsVariable (name : String) : Prop :=
  IsLexeme .variableName name.toList ∨ IsLexeme .this name.toList

/-- A text that may stand for a key of a shape. -/
def IsKey (key : String) : Prop :=
  IsLexeme .identifier key.toList ∨ IsLexeme .integer key.toList ∨ IsLexeme .quoted key.toList

/-- A text that may stand behind `::`. -/
def IsConstant (name : String) : Prop :=
  name = "*" ∨ ∃ word, IsIdentifier word ∧ (name = word ∨ name = word ++ "*")

/-- The words in a literal are lexemes. -/
def Literal.Spelled : Literal → Prop
  | .integer text => IsLexeme .integer text.toList
  | .decimal text => IsLexeme .decimal text.toList
  | .string _ => True
  | .classConstant className name => IsIdentifier className ∧ IsConstant name

/-- The key of an entry is a lexeme, and an entry without a key is not optional. -/
structure ShapeItem.Spelled {α : Type} (item : ShapeItem α) : Prop where
  key : ∀ key, item.key = some key → IsKey key
  isOptional : item.key = none → item.isOptional = false

/-- The name of a parameter is a lexeme. -/
def CallableParam.Spelled {α : Type} (param : CallableParam α) : Prop :=
  ∀ name, param.name = some name → IsVariable name

/-- The type that a conditional asks about, if it asks about one. -/
def Subject.types {α : Type} : Subject α → List α
  | .parameter _ => []
  | .type t => [t]

/-- The parameter that a conditional asks about is a lexeme. -/
def Subject.Spelled {α : Type} : Subject α → Prop
  | .parameter name => IsLexeme .variableName name.toList
  | .type _ => True

namespace TypeExpr

/-- The types that a type is directly made of. -/
def parts : TypeExpr → List TypeExpr
  | .identifier _ | .literal _ | .this => []
  | .generic _ args => args
  | .union members | .intersection members => members
  | .nullable inner | .array inner => [inner]
  | .offset base key => [base, key]
  | .arrayShape _ items _ | .objectShape items => items.map (·.value)
  | .conditional subject _ target yes no => subject.types ++ [target, yes, no]
  | .callable _ params returns => params.map (·.type) ++ [returns]

/-- A property of a type **and of all types in it**. -/
inductive Everywhere (P : TypeExpr → Prop) : TypeExpr → Prop
  | intro {t : TypeExpr} (here : P t) (within : ∀ u ∈ t.parts, Everywhere P u) : Everywhere P t

theorem Everywhere.and {P Q : TypeExpr → Prop} {t : TypeExpr} (hp : t.Everywhere P)
    (hq : t.Everywhere Q) : t.Everywhere fun u => P u ∧ Q u := by
  induction hp with
  | intro here within ih =>
    cases hq with
    | intro here' within' => exact .intro ⟨here, here'⟩ fun u hu => ih u hu (within' u hu)

/-- The words at one place of a type are lexemes, and its lists are as long as they have to be. -/
def Spelled : TypeExpr → Prop
  | .identifier name => IsIdentifier name
  | .generic base args => IsIdentifier base ∧ args ≠ []
  | .union members | .intersection members => 2 ≤ members.length
  | .arrayShape kind items _ =>
    IsIdentifier kind ∧ isShapeName (kind.map Char.toLower) = true ∧
      ∀ item ∈ items, item.Spelled
  | .objectShape items => ∀ item ∈ items, item.Spelled
  | .literal value => value.Spelled
  | .conditional subject _ _ _ _ => subject.Spelled
  | .callable name params _ =>
    IsIdentifier name ∧ isCallableName (name.map Char.toLower) = true ∧
      ∀ param ∈ params, param.Spelled
  | .nullable _ | .array _ | .offset _ _ | .this => True

/-- A type that is spelled with lexemes everywhere. -/
abbrev WellSpelled (t : TypeExpr) : Prop :=
  t.Everywhere Spelled

end TypeExpr

open TypeExpr (WellSpelled)

/-! ### Lexemes that were read -/

/-- Lexemes as they come out of a text: the words, numbers and quoted texts are lexemes by
themselves. -/
def Genuine (ts : List Lexeme) : Prop :=
  ∀ t ∈ ts, t.kind.isWritten = true → IsLexeme t.kind t.chars

theorem genuine_lexemes (text : List Char) : Genuine (lexemes text) :=
  fun _ ht hkind => isLexeme_of_mem_lexemesFrom ht hkind

section Genuine

variable {ts us : List Lexeme}

theorem Genuine.suffix (h : Genuine ts) (hus : us <:+ ts) : Genuine us :=
  fun t ht => h t (hus.subset ht)

theorem Genuine.isLexeme (h : Genuine ts) {t : Lexeme} (ht : t ∈ ts) {kind : LexemeKind}
    (hkind : isKind kind t = true) (hwritten : kind.isWritten = true) :
    IsLexeme kind t.text.toList := by
  obtain rfl : t.kind = kind := by simpa [isKind] using hkind
  rw [Lexeme.text, String.toList_ofList]
  exact h t ht hwritten

end Genuine

/-! ### Readers of words -/

open Reading

theorem takeVariable_yields {ts : List Lexeme} (h : Genuine ts) :
    (takeVariable ts).Yields fun found => ∀ name, found = some name → IsVariable name := by
  refine Yields.map
    (P := fun found : Option Lexeme => ∀ t, found = some t → t ∈ ts ∧ t.isVariable = true)
    (yields_onNext (fun t us _ ht _ hp => yields_done ?_) (yields_done ?_)) ?_
  · rintro u hu
    cases hu
    exact ⟨ht, hp⟩
  · intro u hu
    cases hu
  · intro found hfound name hname
    obtain ⟨t, rfl, rfl⟩ := Option.map_eq_some_iff.1 hname
    obtain ⟨ht, hvariable⟩ := hfound t rfl
    simp only [Lexeme.isVariable, Bool.or_eq_true] at hvariable
    rcases hvariable with hkind | hkind
    · exact .inl (h.isLexeme ht hkind rfl)
    · exact .inr (h.isLexeme ht hkind rfl)

theorem constantName_yields {ts : List Lexeme} (h : Genuine ts) :
    (constantName ts).Yields IsConstant := by
  refine yields_onNext (fun _ _ _ _ _ _ => yields_done (.inl rfl))
    (yields_onNext (fun t us _ ht _ hp => ?_) (yields_fail _))
  refine Yields.map (yields_true _) fun wild _ => .inr ⟨t.text, h.isLexeme ht hp rfl, ?_⟩
  cases wild with
  | true => exact .inr rfl
  | false => exact .inl rfl

theorem shapeKey_yields {ts : List Lexeme} (h : Genuine ts) :
    (shapeKey ts).Yields fun found =>
      (∀ key, found.1 = some key → IsKey key) ∧ (found.1 = none → found.2 = false) := by
  have hnone : ∀ {us : List Lexeme},
      (Reading.done (none, false) : Read (Option String × Bool) us).Yields fun found =>
        (∀ key, found.1 = some key → IsKey key) ∧ (found.1 = none → found.2 = false) :=
    yields_done ⟨fun _ hkey => (Option.some_ne_none _ hkey.symm).elim, fun _ => rfl⟩
  unfold shapeKey
  split
  · next t us =>
    split
    · next hkind =>
      have hkey : IsKey t.text := by
        simp only [Bool.or_eq_true] at hkind
        rcases hkind with (hkind | hkind) | hkind
        · exact .inl (h.isLexeme List.mem_cons_self hkind rfl)
        · exact .inr (.inl (h.isLexeme List.mem_cons_self hkind rfl))
        · exact .inr (.inr (h.isLexeme List.mem_cons_self hkind rfl))
      have hsome :
          ∀ isOptional, (∀ key, (some t.text, isOptional).1 = some key → IsKey key) ∧
          ((some t.text, isOptional).1 = none → isOptional = false) := by
        refine fun isOptional => ⟨fun key hfound => ?_, fun hfound => ?_⟩
        · cases hfound
          exact hkey
        · cases hfound
      split
      · split
        · intro found hfound
          cases hfound
          exact hsome false
        · split
          · split
            · intro found hfound
              cases hfound
              exact hsome true
            · exact hnone
          · exact hnone
      · exact hnone
    · exact hnone
  · exact hnone

/-! ### Readers of types -/

theorem isKind_of_startsParameterConditional {t : Lexeme} {us : List Lexeme}
    (h : startsParameterConditional (t :: us) = true) : isKind .variableName t = true := by
  cases us with
  | nil => cases h
  | cons u us =>
    rw [startsParameterConditional, Bool.and_eq_true] at h
    exact h.1

theorem head?_of_joinsTypes {ts : List Lexeme} (h : joinsTypes ts = true) :
    ts.head?.any (isKind .ampersand) = true := by
  unfold joinsTypes at h
  split at h
  · rw [Bool.and_eq_true] at h
    exact h.1
  · cases h

/-- The type that stands for one that is left out. -/
theorem mixed_spelled : WellSpelled (.identifier "mixed") :=
  .intro (isIdentifier_of_parts rfl rfl rfl) (List.forall_mem_nil _)

-- the recursion is that of the readers, with the same measure
mutual

theorem readType_spelled (ts : List Lexeme) (h : Genuine ts) :
    (readType ts).Yields WellSpelled := by
  rw [readType]
  split
  · next hstarts =>
    refine yields_onNext_cases (fun t us lt hts _ => ?_) fun _ => yields_fail _
    have ht := isKind_of_startsParameterConditional (hts ▸ hstarts)
    exact readConditional_spelled _ us (h.suffix (hts ▸ List.suffix_cons t us))
      (h.isLexeme (hts ▸ List.mem_cons_self) ht rfl) (fun _ hmem => by cases hmem)
  · refine yields_onNext (fun _ us lt _ hus _ => ?_) ?_
    · exact (readOperand_spelled us (h.suffix hus)).map fun inner hinner =>
        .intro trivial (List.forall_mem_singleton.2 hinner)
    · refine (readOperand_spelled ts h).andThen fun first us le hus hfirst => ?_
      have hjoined := readJoined_spelled first us (h.suffix hus) hfirst
      split
      · simp only
        split
        · next conditional hattempt =>
          obtain ⟨hattempt, -⟩ := Option.filter_eq_some_iff.1 hattempt
          cases hattempt
          exact readConditional_spelled (.type first) us (h.suffix hus) trivial
            (List.forall_mem_singleton.2 hfirst)
        · exact hjoined
      · exact hjoined
termination_by 8 * ts.length + 3
decreasing_by all_goals omega

theorem readJoined_spelled (first : TypeExpr) (ts : List Lexeme) (h : Genuine ts)
    (hfirst : WellSpelled first) : (readJoined first ts).Yields WellSpelled := by
  have hlength : ∀ {more : List TypeExpr}, more ≠ [] → 2 ≤ (first :: more).length := by
    intro more hmore
    have := List.length_pos_iff.2 hmore
    rw [List.length_cons]
    omega
  rw [readJoined]
  split
  · next hpipe =>
    exact (readUnion_spelled ts h).map fun more hmore =>
      .intro (hlength (hmore.1 hpipe)) (List.forall_mem_cons.2 ⟨hfirst, hmore.2⟩)
  · split
    · next hjoins =>
      exact (readIntersection_spelled ts h).map fun more hmore =>
        .intro (hlength (hmore.1 hjoins)) (List.forall_mem_cons.2 ⟨hfirst, hmore.2⟩)
    · exact yields_done hfirst
termination_by 8 * ts.length + 2
decreasing_by all_goals omega

theorem readUnion_spelled (ts : List Lexeme) (h : Genuine ts) :
    (readUnion ts).Yields fun more =>
      (ts.head?.any (isKind .pipe) = true → more ≠ []) ∧ ∀ t ∈ more, WellSpelled t := by
  rw [readUnion]
  refine yields_onNext_cases (fun t us lt hts _ => ?_) fun hpipe => yields_done ⟨?_, ?_⟩
  · have h := h.suffix (hts ▸ List.suffix_cons t us)
    refine (readOperand_spelled us h).andThen fun first vs le hvs hfirst => ?_
    refine (readUnion_spelled vs (h.suffix hvs)).map fun more hmore => ?_
    exact ⟨fun _ => List.cons_ne_nil _ _, List.forall_mem_cons.2 ⟨hfirst, hmore.2⟩⟩
  · intro hpipe'
    rw [hpipe] at hpipe'
    cases hpipe'
  · exact List.forall_mem_nil _
termination_by 8 * ts.length + 1
decreasing_by all_goals omega

theorem readIntersection_spelled (ts : List Lexeme) (h : Genuine ts) :
    (readIntersection ts).Yields fun more =>
      (joinsTypes ts = true → more ≠ []) ∧ ∀ t ∈ more, WellSpelled t := by
  rw [readIntersection]
  split
  · next hjoins =>
    refine yields_onNext_cases (fun t us lt hts _ => ?_) fun hnone => ?_
    · have h := h.suffix (hts ▸ List.suffix_cons t us)
      refine (readOperand_spelled us h).andThen fun first vs le hvs hfirst => ?_
      refine (readIntersection_spelled vs (h.suffix hvs)).map fun more hmore => ?_
      exact ⟨fun _ => List.cons_ne_nil _ _, List.forall_mem_cons.2 ⟨hfirst, hmore.2⟩⟩
    · rw [head?_of_joinsTypes hjoins] at hnone
      cases hnone
  · next hjoins =>
      exact yields_done ⟨fun hjoins' => absurd hjoins' hjoins, List.forall_mem_nil _⟩
termination_by 8 * ts.length + 1
decreasing_by all_goals omega

theorem readConditional_spelled (subject : Subject TypeExpr) (ts : List Lexeme) (h : Genuine ts)
    (hsubject : subject.Spelled) (htypes : ∀ t ∈ subject.types, WellSpelled t) :
    (readConditional subject ts).Yields WellSpelled := by
  rw [readConditional]
  refine yields_onNext (fun _ us lt _ hus _ => ?_) (yields_fail _)
  have h := h.suffix hus
  refine (yields_true _).andThen fun negated us₁ le₁ hus₁ _ => ?_
  have h := h.suffix hus₁
  refine (readType_spelled us₁ h).andThen fun target us₂ le₂ hus₂ htarget => ?_
  have h := h.suffix hus₂
  refine (yields_true _).andThen fun _ us₃ le₃ hus₃ _ => ?_
  have h := h.suffix hus₃
  refine (readType_spelled us₃ h).andThen fun yes us₄ le₄ hus₄ hyes => ?_
  have h := h.suffix hus₄
  refine (yields_true _).andThen fun _ us₅ le₅ hus₅ _ => ?_
  refine (readType_spelled us₅ (h.suffix hus₅)).map fun no hno => .intro hsubject ?_
  simp only [TypeExpr.parts, List.forall_mem_append, List.forall_mem_cons]
  exact ⟨htypes, htarget, hyes, hno, List.forall_mem_nil _⟩
termination_by 8 * ts.length + 1
decreasing_by all_goals omega

theorem readOperand_spelled (ts : List Lexeme) (h : Genuine ts) :
    (readOperand ts).Yields WellSpelled := by
  rw [readOperand]
  exact (readAtom_spelled ts h).andThen fun t us le hus ht =>
    readSuffixes_spelled t us (h.suffix hus) ht
termination_by 8 * ts.length + 1
decreasing_by all_goals omega

theorem readSuffixes_spelled (type : TypeExpr) (ts : List Lexeme) (h : Genuine ts)
    (htype : WellSpelled type) : (readSuffixes type ts).Yields WellSpelled := by
  rw [readSuffixes]
  refine yields_onNext (fun _ us lt _ hus _ => ?_) (yields_done htype)
  have h := h.suffix hus
  refine yields_onNext (fun _ vs lt' _ hvs _ => ?_) ?_
  · exact readSuffixes_spelled (.array type) vs (h.suffix hvs)
      (.intro trivial (List.forall_mem_singleton.2 htype))
  · refine (readType_spelled us h).andThen fun key vs le hvs hkey => ?_
    have h := h.suffix hvs
    refine (yields_true _).andThen fun _ ws le' hws _ => ?_
    exact readSuffixes_spelled (.offset type key) ws (h.suffix hws)
      (.intro trivial (List.forall_mem_cons.2 ⟨htype, List.forall_mem_singleton.2 hkey⟩))
termination_by 8 * ts.length
decreasing_by all_goals omega

theorem readAtom_spelled (ts : List Lexeme) (h : Genuine ts) :
    (readAtom ts).Yields WellSpelled := by
  match ts, h with
  | [], _ =>
    rw [readAtom]
    exact yields_fail _
  | t :: us, h =>
    have htail := h.suffix (List.suffix_cons t us)
    have hleaf : ∀ {leaf : TypeExpr}, leaf.parts = [] → leaf.Spelled →
        (Reading.behind t (.done leaf) : Read TypeExpr (t :: us)).Yields WellSpelled :=
      fun hparts hleaf => (yields_done (.intro hleaf (hparts ▸ List.forall_mem_nil _))).behind t
    have hlexeme : ∀ {kind : LexemeKind}, t.kind = kind → kind.isWritten = true →
        IsLexeme kind t.text.toList :=
      fun hkind => h.isLexeme List.mem_cons_self (by simp [isKind, hkind])
    rw [readAtom]
    split
    · refine ((readType_spelled us htail).andThen fun inner vs le hvs hinner => ?_).behind t
      exact (yields_true _).map fun _ _ => hinner
    · exact hleaf rfl trivial
    · next hkind => exact hleaf rfl (hlexeme hkind rfl)
    · next hkind => exact hleaf rfl (hlexeme hkind rfl)
    · exact hleaf rfl trivial
    · next hkind => exact (readNamed_spelled t.text us htail (hlexeme hkind rfl)).behind t
    · exact yields_fail _
termination_by 8 * ts.length
decreasing_by all_goals rw [List.length_cons]; omega

theorem readNamed_spelled (name : String) (ts : List Lexeme) (h : Genuine ts)
    (hname : IsIdentifier name) : (readNamed name ts).Yields WellSpelled := by
  rw [readNamed]
  refine yields_onNext (fun _ us lt _ hus _ => ?_) ?_
  · exact (constantName_yields (h.suffix hus)).map fun constant hconstant =>
      .intro ⟨hname, hconstant⟩ (List.forall_mem_nil _)
  refine yields_onNext (fun _ us lt _ hus _ => ?_) ?_
  · refine (readArgs_spelled us (h.suffix hus)).andThen fun args vs le hvs hargs => ?_
    split
    · exact yields_fail _
    · next hempty => exact yields_done (.intro ⟨hname, by simpa using hempty⟩ hargs)
  refine yields_onNext (fun t us lt _ hus ht => ?_) ?_
  · refine (readItems_spelled us (h.suffix hus)).map fun found hitems => ?_
    obtain ⟨items, isSealed⟩ := found
    simp only [Bool.and_eq_true, Bool.or_eq_true] at ht ⊢
    split
    · exact .intro (fun item hitem => (hitems item hitem).1)
        (List.forall_mem_map.2 fun item hitem => (hitems item hitem).2)
    · next hobject =>
      exact .intro ⟨hname, ht.2.resolve_left hobject, fun item hitem => (hitems item hitem).1⟩
        (List.forall_mem_map.2 fun item hitem => (hitems item hitem).2)
  refine yields_onNext (fun t us lt _ hus ht => ?_) ?_
  · have h := h.suffix hus
    refine (readParams_spelled us h).andThen fun params vs le hvs hparams => ?_
    have h := h.suffix hvs
    refine (yields_true _).andThen fun _ ws le' hws _ => ?_
    refine (readReturns_spelled ws (h.suffix hws)).map fun returns hreturns => ?_
    simp only [Bool.and_eq_true] at ht
    refine .intro ⟨hname, ht.2, fun param hparam => (hparams param hparam).1⟩ ?_
    simp only [TypeExpr.parts, List.forall_mem_append, List.forall_mem_map]
    exact ⟨fun param hparam => (hparams param hparam).2, List.forall_mem_singleton.2 hreturns⟩
  · exact yields_done (.intro hname (List.forall_mem_nil _))
termination_by 8 * ts.length + 3
decreasing_by all_goals omega

theorem readArgs_spelled (ts : List Lexeme) (h : Genuine ts) :
    (readArgs ts).Yields fun args => ∀ t ∈ args, WellSpelled t := by
  rw [readArgs]
  refine yields_onNext (fun _ us _ _ _ _ => yields_done (List.forall_mem_nil _)) ?_
  refine yields_onNext (fun _ us lt _ hus _ => ?_) ?_
  · exact (readMoreArgs_spelled us (h.suffix hus)).map fun more hmore =>
      List.forall_mem_cons.2 ⟨mixed_spelled, hmore⟩
  split
  · refine yields_onNext (fun _ us lt _ hus _ => ?_) (yields_fail _)
    have h := h.suffix hus
    refine (readType_spelled us h).andThen fun t vs le hvs ht => ?_
    exact (readMoreArgs_spelled vs (h.suffix hvs)).map fun more hmore =>
      List.forall_mem_cons.2 ⟨ht, hmore⟩
  · refine (readType_spelled ts h).andThen fun t us le hus ht => ?_
    exact (readMoreArgs_spelled us (h.suffix hus)).map fun more hmore =>
      List.forall_mem_cons.2 ⟨ht, hmore⟩
termination_by 8 * ts.length + 4
decreasing_by all_goals omega

theorem readMoreArgs_spelled (ts : List Lexeme) (h : Genuine ts) :
    (readMoreArgs ts).Yields fun args => ∀ t ∈ args, WellSpelled t := by
  rw [readMoreArgs]
  refine yields_onNext (fun _ us lt _ hus _ => readArgs_spelled us (h.suffix hus)) ?_
  exact (yields_true _).map fun _ _ => List.forall_mem_nil _
termination_by 8 * ts.length
decreasing_by all_goals omega

theorem readItems_spelled (ts : List Lexeme) (h : Genuine ts) :
    (readItems ts).Yields fun found => ∀ item ∈ found.1, item.Spelled ∧
      WellSpelled item.value := by
  rw [readItems]
  refine yields_onNext (fun _ us _ _ _ _ => yields_done (List.forall_mem_nil _)) ?_
  refine yields_onNext (fun _ us lt _ hus _ => ?_) ?_
  · refine (yields_true _).andThen fun _ us₁ _ _ _ => ?_
    refine (yields_true _).andThen fun _ us₂ _ _ _ => ?_
    exact (yields_true _).map fun _ _ => List.forall_mem_nil _
  · refine (shapeKey_yields h).andThen fun found us le hus hkey => ?_
    obtain ⟨key, isOptional⟩ := found
    have h := h.suffix hus
    refine (readType_spelled us h).andThen fun value vs le' hvs hvalue => ?_
    exact (readMoreItems_spelled vs (h.suffix hvs)).map fun more hmore =>
      List.forall_mem_cons.2 ⟨⟨⟨hkey.1, hkey.2⟩, hvalue⟩, hmore⟩
termination_by 8 * ts.length + 4
decreasing_by all_goals omega

theorem readMoreItems_spelled (ts : List Lexeme) (h : Genuine ts) :
    (readMoreItems ts).Yields fun found =>
      ∀ item ∈ found.1, item.Spelled ∧ WellSpelled item.value := by
  rw [readMoreItems]
  refine yields_onNext (fun _ us lt _ hus _ => readItems_spelled us (h.suffix hus)) ?_
  exact (yields_true _).map fun _ _ => List.forall_mem_nil _
termination_by 8 * ts.length
decreasing_by all_goals omega

theorem readParams_spelled (ts : List Lexeme) (h : Genuine ts) :
    (readParams ts).Yields fun params =>
      ∀ param ∈ params, param.Spelled ∧ WellSpelled param.type := by
  rw [readParams]
  split
  · exact yields_done (List.forall_mem_nil _)
  · refine (readType_spelled ts h).andThen fun type us₁ le₁ hus₁ htype => ?_
    have h := h.suffix hus₁
    refine (yields_true _).andThen fun byRef us₂ le₂ hus₂ _ => ?_
    have h := h.suffix hus₂
    refine (yields_true _).andThen fun variadic us₃ le₃ hus₃ _ => ?_
    have h := h.suffix hus₃
    refine (takeVariable_yields h).andThen fun name us₄ le₄ hus₄ hname => ?_
    have h := h.suffix hus₄
    refine (yields_true _).andThen fun isOptional us₅ le₅ hus₅ _ => ?_
    have h := h.suffix hus₅
    refine yields_onNext (fun _ vs lt _ hvs _ => ?_) ?_
    · exact (readParams_spelled vs (h.suffix hvs)).map fun more hmore =>
        List.forall_mem_cons.2 ⟨⟨hname, htype⟩, hmore⟩
    · exact yields_done (List.forall_mem_singleton.2 ⟨hname, htype⟩)
termination_by 8 * ts.length + 4
decreasing_by all_goals omega

theorem readReturns_spelled (ts : List Lexeme) (h : Genuine ts) :
    (readReturns ts).Yields WellSpelled := by
  rw [readReturns]
  refine yields_onNext (fun _ us lt _ hus _ => ?_) (yields_done mixed_spelled)
  have h := h.suffix hus
  refine yields_onNext (fun _ vs lt' _ hvs _ => ?_) (readOperand_spelled us h)
  exact (readOperand_spelled vs (h.suffix hvs)).map fun inner hinner =>
    .intro trivial (List.forall_mem_singleton.2 hinner)
termination_by 8 * ts.length
decreasing_by all_goals omega

end

end PhpHandbook.DocBlock
