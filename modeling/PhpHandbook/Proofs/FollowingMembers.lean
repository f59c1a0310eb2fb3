import PhpHandbook.Proofs.Following

/-!
# Modifiers, headers and imports side by side

The readers of all declarations in which neither a body of a method nor a value stands: modifiers,
uses of traits, headers of classes, namespaces and imports.  Each is followed by itself on the items
of the other text, step by step.

Where a reader looks at two tokens before it takes any, the first of them may be where the texts
differ, so that the second one is not the same.  For constants that matters: whether a type stands
there is told from two tokens.

## Main statements

* `readModifiers_follows`, `readTraitUse_follows`.
* `readHeader_follows`: headers of classes.
* `readNamespace_follows`, `readImports_follows`.
-/

namespace PhpHandbook.Declaration

open Source (Span TokenKind)

variable {env₁ env₂ : Env} {marks : List Nat}

/-! ### Modifiers -/

theorem Aligned.startsSet_eq {ts₁ ts₂ : List Item}
    (h : Aligned env₁ env₂ marks ts₁ ts₂) :
    startsSet ts₁ = startsSet ts₂ := by
  refine h.second_eq (byKind_isMark .parenOpen) (fun _ hi => not_braceOpen_of_mark hi nofun)
    fun i j hij => ?_
  rw [hij.lexeme_eq]

theorem readSet_follows {ts₁ ts₂ : List Item} (h : Aligned env₁ env₂ marks ts₁ ts₂) :
    Follows env₁ env₂ marks (readSet env₁ ts₁) (readSet env₂ ts₂) := by
  have hany : ByKind fun _ : Item => true := fun _ _ _ => rfl
  rw [readSet, readSet, ← h.startsSet_eq]
  split
  · refine (follows_skip hany h).andThen fun _ us₁ _ _ us₂ _ _ hus => ?_
    refine (follows_skip hany hus).andThen fun _ vs₁ _ _ vs₂ _ _ hvs => ?_
    exact (expectMark_follows hvs .parenClose).map fun _ _ _ => Same.refl _
  · exact follows_done h rfl

theorem readModifiers_follows {ts₁ ts₂ : List Item}
    (h : Aligned env₁ env₂ marks ts₁ ts₂) (m : Modifiers) :
    Follows env₁ env₂ marks (readModifiers env₁ m ts₁) (readModifiers env₂ m ts₂) := by
  rw [readModifiers, readModifiers]
  refine follows_onNext (byKind_of_kind TokenKind.isModifier) h
    (fun t₁ us₁ lt₁ t₂ us₂ _ ht hus => ?_) (follows_done h rfl)
  rw [← ht.kind_eq]
  cases visibility? t₁.kind with
  | none => exact readModifiers_follows hus _
  | some v =>
    refine (readSet_follows hus).andThen fun isSet₁ vs₁ le₁ isSet₂ vs₂ _ hset hvs => ?_
    obtain rfl : isSet₁ = isSet₂ := hset
    exact readModifiers_follows hvs _
termination_by ts₁.length
decreasing_by all_goals omega

/-! ### Uses of traits -/

theorem readAdaptedTrait_follows {ts₁ ts₂ : List Item}
    (h : Aligned env₁ env₂ marks ts₁ ts₂) :
    Follows env₁ env₂ marks (readAdaptedTrait env₁ ts₁)
      (readAdaptedTrait env₂ ts₂) := by
  have hnext : (next (·.kind.isName) ts₁ && second (isMark .doubleColon) ts₁)
      = (next (·.kind.isName) ts₂ && second (isMark .doubleColon) ts₂) := by
    refine h.second_eq (byKind_of_kind TokenKind.isName) (fun i hi hopen => ?_)
      fun i j hij => byKind_isMark .doubleColon i j hij.kind_eq
    simp only [isMark, beq_iff_eq] at hopen
    rw [hopen] at hi
    cases hi
  rw [readAdaptedTrait, readAdaptedTrait, ← hnext]
  split
  · refine (readName_follows h).andThen fun n₁ us₁ _ n₂ us₂ _ hn hus => ?_
    exact (follows_skip (fun _ _ _ => rfl) hus).map fun _ _ _ => hn.some
  · exact follows_done h rfl

theorem readAdaptation_follows {ts₁ ts₂ : List Item}
    (h : Aligned env₁ env₂ marks ts₁ ts₂) :
    Follows env₁ env₂ marks (readAdaptation env₁ ts₁) (readAdaptation env₂ ts₂) := by
  refine (readAdaptedTrait_follows h).andThen fun trait₁ us₁ _ trait₂ us₂ _ htrait hus => ?_
  refine (readMemberName_follows hus).andThen
    fun method₁ us₁ _ method₂ us₂ _ hmethod hus => ?_
  have hname : method₁.name = method₂.name := hmethod.congr Ident.name
  refine follows_onNext (byKind_isKeyword .kwInsteadof) hus (fun _ vs₁ _ _ vs₂ _ _ hvs => ?_) ?_
  · cases trait₁ with
    | none => exact follows_fail
    | some n₁ =>
      cases trait₂ with
      | none => cases htrait
      | some n₂ =>
        have hn : Same n₁ n₂ := Option.some.inj htrait
        refine (readNames_follows hvs).map fun ns₁ ns₂ hns => ?_
        rw [hname]
        exact hn.precedence _ hns
  · refine (expectKeyword_follows hus .kwAs).andThen fun _ vs₁ _ _ vs₂ _ _ hvs => ?_
    refine (follows_take? (byKind_of_kind fun k => (visibility? k).isSome) hvs).andThen
      fun word₁ ws₁ _ word₂ ws₂ _ hword hws => ?_
    have hvisibility : (word₁.bind fun i => visibility? i.kind)
        = word₂.bind fun i => visibility? i.kind := by
      cases word₁ with
      | none =>
        cases word₂ with
        | none => rfl
        | some i₂ => cases hword
      | some i₁ =>
        cases word₂ with
        | none => cases hword
        | some i₂ =>
          have hi : Same i₁ i₂ := Option.some.inj hword
          exact congrArg visibility? hi.kind_eq
    dsimp only
    rw [← hws.next_eq (byKind_isMark .semicolon), hvisibility, hname]
    split
    · exact follows_done hws (htrait.rename _ _ _)
    · refine (readMemberName_follows hws).map fun new₁ new₂ hnew => ?_
      have hnewName : new₁.name = new₂.name := hnew.congr Ident.name
      rw [hnewName]
      exact htrait.rename _ _ _

theorem readAdaptations_follows {ts₁ ts₂ : List Item}
    (h : Aligned env₁ env₂ marks ts₁ ts₂) :
    Follows env₁ env₂ marks (readAdaptations env₁ ts₁) (readAdaptations env₂ ts₂) := by
  rw [readAdaptations, readAdaptations, ← h.next_eq (byKind_isMark .braceClose), ← h.isEmpty_eq]
  split
  · exact follows_done h rfl
  · refine (readAdaptation_follows h).andThen fun a₁ us₁ le₁ a₂ us₂ _ ha hus => ?_
    refine follows_onNext (byKind_isMark .semicolon) hus (fun _ vs₁ lt₁ _ vs₂ _ _ hvs => ?_)
      follows_fail
    exact (readAdaptations_follows hvs).map fun _ _ has => ha.cons has
termination_by ts₁.length
decreasing_by omega

theorem readUseEnd_follows {ts₁ ts₂ : List Item} (h : Aligned env₁ env₂ marks ts₁ ts₂) :
    Follows env₁ env₂ marks (readUseEnd env₁ ts₁) (readUseEnd env₂ ts₂) := by
  refine follows_onNext (byKind_isMark .braceOpen) h (fun _ us₁ _ _ us₂ _ _ hus => ?_) ?_
  · refine (readAdaptations_follows hus).andThen fun _ vs₁ _ _ vs₂ _ has hvs => ?_
    exact (expectMark_follows hvs .braceClose).map fun _ _ _ => has.prod (Same.span _ _)
  · exact (expectMark_follows h .semicolon).map fun _ _ _ =>
      Same.prod (Same.refl _) (Same.span _ _)

theorem Aligned.comments {ts₁ ts₂ : List Item} (h : Aligned env₁ env₂ marks ts₁ ts₂) :
    Same ((ts₁.head?.map (·.comments)).getD []) ((ts₂.head?.map (·.comments)).getD []) := by
  rcases h.head?_cases with ⟨rfl, rfl⟩ | ⟨t₁, us₁, t₂, us₂, rfl, rfl, hsame⟩
  · rfl
  · exact hsame.comments

theorem readTraitUse_follows {ts₁ ts₂ : List Item}
    (h : Aligned env₁ env₂ marks ts₁ ts₂) :
    Follows env₁ env₂ marks (readTraitUse env₁ ts₁) (readTraitUse env₂ ts₂) := by
  refine (expectKeyword_follows h .kwUse).andThen fun _ us₁ _ _ us₂ _ _ hus => ?_
  refine (readNames_follows hus).andThen fun _ vs₁ _ _ vs₂ _ htraits hvs => ?_
  exact (readUseEnd_follows hvs).map fun _ _ hend => Same.traitUse htraits hend.fst h.comments

/-! ### What readers of values look at -/

theorem byKind_endsConstant : ByKind endsConstant :=
  byKind_of_kind fun k => k == .mark .comma || k == .mark .semicolon

/-- Both readers look for a type alike, unless the texts differ there. -/
theorem Aligned.constantHasType_cases {ts₁ ts₂ : List Item}
    (h : Aligned env₁ env₂ marks ts₁ ts₂) :
    constantHasType ts₁ = constantHasType ts₂ ∨
      ∃ t₁ c₁ body₁ us₁ t₂ c₂ body₂ us₂ mark marks',
      Marked env₁ env₂ marks ts₁ ts₂ t₁ c₁ body₁ us₁ t₂ c₂ body₂ us₂ mark
        marks' := by
  rcases h.cases with ⟨-, rfl, rfl⟩ | ⟨t₁, us₁, t₂, us₂, rfl, rfl, hsame, hus⟩ | hm
  · exact .inl rfl
  · left
    have hkind := hsame.kind_eq
    rcases hus.head?_cases with ⟨rfl, rfl⟩ | ⟨u₁, vs₁, u₂, vs₂, rfl, rfl, hu⟩
    · simp only [constantHasType, isMark, hkind]
    · simp only [constantHasType, isMark, hkind, hu.kind_eq]
  · exact .inr hm

theorem byKind_endsProperty : ByKind endsProperty :=
  byKind_of_kind fun k => k == .mark .comma || k == .mark .semicolon || k == .mark .braceOpen

theorem readHooks_follows {ts₁ ts₂ : List Item} (h : Aligned env₁ env₂ marks ts₁ ts₂) :
    Follows env₁ env₂ marks (readHooks env₁ ts₁) (readHooks env₂ ts₂) := by
  rw [readHooks, readHooks, ← h.next_eq (byKind_isMark .braceOpen)]
  split
  · exact (skipBlock_follows h).map fun _ _ _ => Same.refl _
  · exact follows_done h rfl

theorem byKind_startsUntyped : ByKind startsUntyped :=
  byKind_of_kind fun k => k == .variableName || k == .mark .ampersand || k == .mark .ellipsis

theorem byKind_endsParam : ByKind endsParam :=
  byKind_of_kind fun k => k == .mark .comma || k == .mark .parenClose

/-! ### Headers of classes -/

theorem readClassModifiers_follows {ts₁ ts₂ : List Item}
    (h : Aligned env₁ env₂ marks ts₁ ts₂) (m : ClassModifiers) :
    Follows env₁ env₂ marks (readClassModifiers m ts₁) (readClassModifiers m ts₂) := by
  have hdone := @follows_done Fault _ _ _ _ _ _ _ h m m rfl
  rcases h.cases with ⟨-, rfl, rfl⟩ | ⟨t₁, us₁, t₂, us₂, rfl, rfl, hsame, hus⟩ |
    ⟨t₁, c₁, body₁, us₁, t₂, c₂, body₂, us₂, mark, marks', hm⟩
  · exact hdone
  · rw [readClassModifiers.eq_def, readClassModifiers.eq_def m (t₂ :: us₂)]
    dsimp only
    rw [← hsame.kind_eq]
    generalize t₁.kind = kind
    split
    · exact follows_behind (readClassModifiers_follows hus _)
    · exact follows_behind (readClassModifiers_follows hus _)
    · exact follows_behind (readClassModifiers_follows hus _)
    · exact hdone
  · obtain ⟨rfl, rfl, rfl, hsame, -, -, hlost⟩ := hm
    rw [readClassModifiers.eq_def, readClassModifiers.eq_def m (t₂ :: _)]
    dsimp only
    rw [← hsame.kind_eq]
    generalize t₁.kind = kind
    split
    · exact follows_of_entered List.mem_cons_self (hlost _ (behind_rest_suffix t₁ _))
    · exact follows_of_entered List.mem_cons_self (hlost _ (behind_rest_suffix t₁ _))
    · exact follows_of_entered List.mem_cons_self (hlost _ (behind_rest_suffix t₁ _))
    · exact hdone
termination_by ts₁.length
decreasing_by all_goals subst_vars; rw [List.length_cons]; omega

theorem readClassKind_follows {ts₁ ts₂ : List Item}
    (h : Aligned env₁ env₂ marks ts₁ ts₂) :
    Follows env₁ env₂ marks (readClassKind env₁ ts₁) (readClassKind env₂ ts₂) := by
  refine (follows_expect (byKind_of_kind fun k => (classKind? k).isSome) h).map fun i j hi => ?_
  rw [hi.kind_eq]
  rfl

theorem readNamesAfter_follows {ts₁ ts₂ : List Item}
    (h : Aligned env₁ env₂ marks ts₁ ts₂) (word : Source.Keyword) :
    Follows env₁ env₂ marks (readNamesAfter env₁ word ts₁)
      (readNamesAfter env₂ word ts₂) :=
  follows_onNext (byKind_isKeyword word) h (fun _ _ _ _ _ _ _ hus => readNames_follows hus)
    (follows_done h rfl)

theorem readHeader_follows {ts₁ ts₂ : List Item} (h : Aligned env₁ env₂ marks ts₁ ts₂) :
    Follows env₁ env₂ marks (readHeader env₁ ts₁) (readHeader env₂ ts₂) := by
  refine (skipAttributes_follows h).andThen fun _ us₁ _ _ us₂ _ _ hus => ?_
  have hdoc := hus.firstDoc h.docComment?
  refine (readClassModifiers_follows hus {}).andThen
    fun _ us₁ _ _ us₂ _ hmodifiers hus => ?_
  replace hdoc := hus.firstDoc hdoc
  refine (readClassKind_follows hus).andThen fun kind₁ us₁ _ kind₂ us₂ _ hkind hus => ?_
  obtain rfl : kind₁ = kind₂ := hkind
  refine (readIdent_follows hus).andThen fun _ us₁ _ _ us₂ _ hname hus => ?_
  have hbacking : Follows env₁ env₂ marks
      (if kind₁ = .enum then readReturnHint env₁ us₁ else .done none)
      (if kind₁ = .enum then readReturnHint env₂ us₂ else .done none) := by
    split
    · exact readReturnHint_follows hus
    · exact follows_done hus rfl
  refine hbacking.andThen fun _ us₁ _ _ us₂ _ htype hus => ?_
  refine (readNamesAfter_follows hus .kwExtends).andThen fun _ us₁ _ _ us₂ _ hparents hus => ?_
  refine (readNamesAfter_follows hus .kwImplements).andThen
    fun _ us₁ _ _ us₂ _ himplements hus => ?_
  refine (expectMark_follows hus .braceOpen).map fun _ _ _ => ?_
  exact Same.classLike (Same.refl _) rfl hname hmodifiers hparents himplements htype hdoc

/-! ### Namespaces and imports -/

theorem readNamespace_follows {ts₁ ts₂ : List Item}
    (h : Aligned env₁ env₂ marks ts₁ ts₂) (span₁ span₂ : Span) :
    Follows env₁ env₂ marks (readNamespace env₁ span₁ ts₁)
      (readNamespace env₂ span₂ ts₂) := by
  have hname : Follows env₁ env₂ marks
      ((Reading.take? (·.kind.isName) ts₁ : Read (Option Item) ts₁).map (·.map fun i =>
        (Name.ofText i.token.lexeme i.token.span).text))
      ((Reading.take? (·.kind.isName) ts₂ : Read (Option Item) ts₂).map (·.map fun i =>
        (Name.ofText i.token.lexeme i.token.span).text)) := by
    refine (follows_take? (byKind_of_kind TokenKind.isName) h).map fun o₁ o₂ ho => ?_
    cases o₁ with
    | none =>
      cases o₂ with
      | none => rfl
      | some i₂ => cases ho
    | some i₁ =>
      cases o₂ with
      | none => cases ho
      | some i₂ =>
        have hi : Same i₁ i₂ := Option.some.inj ho
        have htext := (Same.ofText i₁.token.lexeme i₁.token.span i₂.token.span).text_eq
        rw [hi.lexeme_eq] at htext
        rw [Option.map_some, Option.map_some, hi.lexeme_eq, htext]
        exact Same.refl _
  refine hname.andThen fun name₁ us₁ _ name₂ us₂ _ hname hus => ?_
  obtain rfl := hname.option_eq
  refine follows_onNext (byKind_isMark .braceOpen) hus (fun _ us₁ _ _ us₂ _ _ hus => ?_) ?_
  · exact follows_done hus rfl
  · exact follows_onNext (byKind_isMark .semicolon) hus
      (fun _ us₁ _ _ us₂ _ _ hus => follows_done hus rfl) follows_fail

theorem readImportKind_follows {ts₁ ts₂ : List Item}
    (h : Aligned env₁ env₂ marks ts₁ ts₂) (fallback : ImportKind) :
    Follows env₁ env₂ marks (readImportKind fallback ts₁) (readImportKind fallback ts₂) :=
  follows_onNext (byKind_isKeyword .kwFunction) h
    (fun _ _ _ _ _ _ _ hus => follows_done hus rfl)
    (follows_onNext (byKind_isKeyword .kwConst) h (fun _ _ _ _ _ _ _ hus => follows_done hus rfl)
      (follows_done h rfl))

theorem readAlias_follows {ts₁ ts₂ : List Item} (h : Aligned env₁ env₂ marks ts₁ ts₂)
    (kind : ImportKind) (full : String) {name₁ name₂ : Name} (hname : Same name₁ name₂) :
    Follows env₁ env₂ marks (readAlias env₁ kind full name₁ ts₁)
      (readAlias env₂ kind full name₂ ts₂) := by
  refine follows_onNext (byKind_isKeyword .kwAs) h (fun _ us₁ _ _ us₂ _ _ hus => ?_) ?_
  · refine (readIdent_follows hus).map fun own₁ own₂ hown => ?_
    have hlocal : own₁.name = own₂.name := hown.congr Ident.name
    rw [hlocal]
    rfl
  · refine follows_done h ?_
    rw [Name.last, Name.last, hname.text_eq]
    rfl

theorem readImportGroup_follows {ts₁ ts₂ : List Item}
    (h : Aligned env₁ env₂ marks ts₁ ts₂) (kind : ImportKind) (base : String) :
    Follows env₁ env₂ marks (readImportGroup env₁ kind base ts₁)
      (readImportGroup env₂ kind base ts₂) := by
  rw [readImportGroup, readImportGroup, ← h.next_eq (byKind_isMark .braceClose)]
  split
  · exact follows_done h rfl
  · refine (readImportKind_follows h kind).andThen
      fun kind₁ us₁ le₁ kind₂ us₂ _ hkind hus => ?_
    obtain rfl : kind₁ = kind₂ := hkind
    refine (readName_follows hus).andThen fun name₁ us₁ le₂ name₂ us₂ _ hname hus => ?_
    rw [← hname.text_eq]
    refine (readAlias_follows hus _ _ hname).andThen
      fun item₁ us₁ le₃ item₂ us₂ _ hitem hus => ?_
    refine follows_onNext (byKind_isMark .comma) hus (fun _ us₁ lt₁ _ us₂ _ _ hus => ?_) ?_
    · exact (readImportGroup_follows hus kind base).map fun _ _ hitems => hitem.cons hitems
    · exact follows_done hus (hitem.cons (Same.refl _))
termination_by ts₁.length
decreasing_by omega

theorem readImport_follows {ts₁ ts₂ : List Item} (h : Aligned env₁ env₂ marks ts₁ ts₂)
    (kind : ImportKind) :
    Follows env₁ env₂ marks (readImport env₁ kind ts₁) (readImport env₂ kind ts₂) := by
  refine (readName_follows h).andThen fun name₁ us₁ _ name₂ us₂ _ hname hus => ?_
  rw [← hname.text_eq]
  refine follows_onNext (byKind_isMark .backslash) hus (fun _ us₁ _ _ us₂ _ _ hus => ?_) ?_
  · refine (expectMark_follows hus .braceOpen).andThen fun _ us₁ _ _ us₂ _ _ hus => ?_
    refine (readImportGroup_follows hus _ _).andThen fun _ us₁ _ _ us₂ _ hitems hus => ?_
    exact (expectMark_follows hus .braceClose).map fun _ _ _ => hitems
  · exact (readAlias_follows hus _ _ hname).map fun _ _ hitem => hitem.cons (Same.refl _)

theorem readImportList_follows {ts₁ ts₂ : List Item}
    (h : Aligned env₁ env₂ marks ts₁ ts₂) (kind : ImportKind) :
    Follows env₁ env₂ marks (readImportList env₁ kind ts₁)
      (readImportList env₂ kind ts₂) := by
  rw [readImportList, readImportList]
  refine (readImport_follows h kind).andThen
    fun items₁ us₁ le₁ items₂ us₂ _ hitems hus => ?_
  refine follows_onNext (byKind_isMark .comma) hus (fun _ us₁ lt₁ _ us₂ _ _ hus => ?_)
    (follows_done hus hitems)
  exact (readImportList_follows hus kind).map fun _ _ hmore => hitems.append hmore
termination_by ts₁.length
decreasing_by omega

theorem readImports_follows {ts₁ ts₂ : List Item}
    (h : Aligned env₁ env₂ marks ts₁ ts₂) :
    Follows env₁ env₂ marks (readImports env₁ ts₁) (readImports env₂ ts₂) := by
  refine (readImportKind_follows h .className).andThen
    fun kind₁ us₁ _ kind₂ us₂ _ hkind hus => ?_
  obtain rfl : kind₁ = kind₂ := hkind
  refine (readImportList_follows hus _).andThen fun _ us₁ _ _ us₂ _ hitems hus => ?_
  exact (expectMark_follows hus .semicolon).map fun _ _ _ => hitems

end PhpHandbook.Declaration
