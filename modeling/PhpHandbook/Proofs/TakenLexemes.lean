import PhpHandbook.Proofs.TypeSpelling

/-!
# Lexemes that are taken

The readers of types take no lexeme that the grammar has no use for: each one looks at the kind of a
lexeme before it takes it.  So what is read to its end holds no text outside the grammar.

## Main definitions

* `Lexeme.IsKnown`: a lexeme that the grammar has a use for.

## Main statements

* `shapeKey_cases`: how a key was read.
* `readType_takes`: the readers of types take only lexemes that the grammar has a use for.
-/

namespace PhpHandbook.DocBlock

open Reading

/-! ### Lexemes that are taken -/

/-- A lexeme that the grammar has a use for. -/
def Lexeme.IsKnown (l : Lexeme) : Prop :=
  l.kind ≠ .other

section Known

variable {l : Lexeme}

theorem isKnown_of_isKind {kind : LexemeKind} (hkind : kind ≠ .other) (l : Lexeme)
    (hl : isKind kind l = true) : l.IsKnown := by
  rw [isKind, beq_iff_eq] at hl
  rwa [Lexeme.IsKnown, hl]

theorem isKnown_of_isTight {kind : LexemeKind} (hkind : kind ≠ .other) (l : Lexeme)
    (hl : isTight kind l = true) : l.IsKnown :=
  isKnown_of_isKind hkind l (Bool.and_eq_true _ _ ▸ hl : _ ∧ _).1

theorem isKnown_of_isWord {word : String} (l : Lexeme) (hl : l.isWord word = true) : l.IsKnown :=
  isKnown_of_isKind (by decide) l (Bool.and_eq_true _ _ ▸ hl : _ ∧ _).1

theorem isKnown_of_isVariable (l : Lexeme) (hl : l.isVariable = true) : l.IsKnown := by
  rw [Lexeme.isVariable, Bool.or_eq_true] at hl
  rcases hl with hl | hl
  · exact isKnown_of_isKind (show LexemeKind.variableName ≠ .other by decide) l hl
  · exact isKnown_of_isKind (show LexemeKind.this ≠ .other by decide) l hl

theorem takes_expectKind {kind : LexemeKind} (hkind : kind ≠ .other) (text : String)
    (ts : List Lexeme) :
    (expectKind kind text ts).Takes Lexeme.IsKnown :=
  takes_expect (isKnown_of_isKind hkind) _ ts

theorem takes_skipKind {kind : LexemeKind} (hkind : kind ≠ .other) (ts : List Lexeme) :
    (skipKind kind ts).Takes Lexeme.IsKnown :=
  takes_skip (isKnown_of_isKind hkind) ts

theorem takes_takeVariable (ts : List Lexeme) : (takeVariable ts).Takes Lexeme.IsKnown :=
  (takes_take? isKnown_of_isVariable ts).map _

theorem takes_constantName (ts : List Lexeme) : (constantName ts).Takes Lexeme.IsKnown := by
  refine takes_onNext (fun t _ _ => isKnown_of_isKind (by decide) t) (fun _ _ _ => takes_done _) ?_
  refine takes_onNext (fun t _ _ => isKnown_of_isKind (by decide) t) (fun t us _ => ?_)
    (takes_fail _)
  exact (takes_skip (isKnown_of_isTight (by decide)) us).map _

/-- Whether a lexeme can be a key. -/
def IsKeyWord (t : Lexeme) : Prop :=
  (isKind .identifier t || isKind .integer t || isKind .quoted t) = true

theorem isKnown_of_isVariance {us : List Lexeme} (h : isVariance (l :: us) = true) : l.IsKnown := by
  cases us with
  | nil => cases h
  | cons u us =>
    rw [isVariance, Bool.and_eq_true, Bool.or_eq_true] at h
    rcases h.1 with hl | hl
    · exact isKnown_of_isWord l hl
    · exact isKnown_of_isWord l hl

/-- **How a key was read**: two or three lexemes, or none. -/
theorem shapeKey_cases {ts rest : List Lexeme} {found : Option String × Bool}
    (h : (shapeKey ts).Reads found rest) :
    (found = (none, false) ∧ rest = ts) ∨
      (∃ key colon, ts = key :: colon :: rest ∧ IsKeyWord key ∧
        isKind .colon colon = true) ∨
      (∃ key question colon, ts = key :: question :: colon :: rest ∧ IsKeyWord key ∧
        isKind .question question = true ∧ isKind .colon colon = true) := by
  have hnone (h : (Reading.done (none, false) : Read (Option String × Bool) ts).Reads found rest) :
      found = (none, false) ∧ rest = ts := by
    obtain ⟨rfl, rfl⟩ := reads_done_iff.1 h
    exact ⟨rfl, rfl⟩
  unfold shapeKey at h
  split at h
  · next t us =>
    split_ifs at h with hkey
    · split at h
      · next u vs =>
        split_ifs at h with hcolon
        · obtain ⟨-, rfl⟩ := h
          exact .inr (.inl ⟨t, u, rfl, hkey, hcolon⟩)
        · split at h
          · next v ws =>
            split_ifs at h with hmarks
            · obtain ⟨-, rfl⟩ := h
              rw [Bool.and_eq_true] at hmarks
              exact .inr (.inr ⟨t, u, v, rfl, hkey, hmarks.1, hmarks.2⟩)
            · exact .inl (hnone h)
          · exact .inl (hnone h)
      · exact .inl (hnone h)
    · exact .inl (hnone h)
  · exact .inl (hnone h)

theorem IsKeyWord.isKnown (h : IsKeyWord l) : l.IsKnown := by
  simp only [IsKeyWord, Bool.or_eq_true] at h
  rcases h with (h | h) | h
  · exact isKnown_of_isKind (by decide) l h
  · exact isKnown_of_isKind (by decide) l h
  · exact isKnown_of_isKind (by decide) l h

theorem takes_shapeKey (ts : List Lexeme) : (shapeKey ts).Takes Lexeme.IsKnown := by
  intro found rest h
  obtain ⟨-, rfl⟩ | ⟨key, colon, rfl, hkey, hcolon⟩ |
      ⟨key, question, colon, rfl, hkey, hquestion, hcolon⟩ := shapeKey_cases h
  · exact ⟨[], rfl, List.forall_mem_nil _⟩
  · exact ⟨[key, colon], rfl,
      by simp [hkey.isKnown, isKnown_of_isKind (by decide) colon hcolon]⟩
  · exact ⟨[key, question, colon], rfl, by
      simp [hkey.isKnown, isKnown_of_isKind (by decide) question hquestion,
        isKnown_of_isKind (by decide) colon hcolon]⟩

end Known

-- the recursion is that of the readers, with the same measure
mutual

theorem readType_takes (ts : List Lexeme) : (readType ts).Takes Lexeme.IsKnown := by
  rw [readType]
  split
  · next hstarts =>
    refine takes_onNext (fun t us hts _ => ?_) (fun t us lt => readConditional_takes _ us)
      (takes_fail _)
    exact isKnown_of_isKind (by decide) t (isKind_of_startsParameterConditional (hts ▸ hstarts))
  · refine takes_onNext (fun t _ _ => isKnown_of_isKind (by decide) t) (fun _ us lt => ?_) ?_
    · exact (readOperand_takes us).map _
    · refine (readOperand_takes ts).andThen fun first us le => ?_
      have hjoined := readJoined_takes first us
      split
      · simp only
        split
        · next conditional hattempt =>
          obtain ⟨hattempt, -⟩ := Option.filter_eq_some_iff.1 hattempt
          cases hattempt
          exact readConditional_takes (.type first) us
        · exact hjoined
      · exact hjoined
termination_by 8 * ts.length + 3
decreasing_by all_goals omega

theorem readJoined_takes (first : TypeExpr) (ts : List Lexeme) :
    (readJoined first ts).Takes Lexeme.IsKnown := by
  rw [readJoined]
  split
  · exact (readUnion_takes ts).map _
  · split
    · exact (readIntersection_takes ts).map _
    · exact takes_done first
termination_by 8 * ts.length + 2
decreasing_by all_goals omega

theorem readUnion_takes (ts : List Lexeme) : (readUnion ts).Takes Lexeme.IsKnown := by
  rw [readUnion]
  refine takes_onNext (fun t _ _ => isKnown_of_isKind (by decide) t) (fun _ us lt => ?_)
    (takes_done [])
  exact (readOperand_takes us).andThen fun t vs le => (readUnion_takes vs).map _
termination_by 8 * ts.length + 1
decreasing_by all_goals omega

theorem readIntersection_takes (ts : List Lexeme) : (readIntersection ts).Takes Lexeme.IsKnown := by
  rw [readIntersection]
  split
  · refine takes_onNext (fun t _ _ => isKnown_of_isKind (by decide) t) (fun _ us lt => ?_)
      (takes_done [])
    exact (readOperand_takes us).andThen fun t vs le => (readIntersection_takes vs).map _
  · exact takes_done []
termination_by 8 * ts.length + 1
decreasing_by all_goals omega

theorem readConditional_takes (subject : Subject TypeExpr) (ts : List Lexeme) :
    (readConditional subject ts).Takes Lexeme.IsKnown := by
  rw [readConditional]
  refine takes_onNext (fun t _ _ => isKnown_of_isWord t) (fun _ us lt => ?_) (takes_fail _)
  refine (takes_skip isKnown_of_isWord us).andThen fun negated us₁ le₁ => ?_
  refine (readType_takes us₁).andThen fun target us₂ le₂ => ?_
  refine (takes_expectKind (by decide) _ us₂).andThen fun _ us₃ le₃ => ?_
  refine (readType_takes us₃).andThen fun yes us₄ le₄ => ?_
  refine (takes_expectKind (by decide) _ us₄).andThen fun _ us₅ le₅ => ?_
  exact (readType_takes us₅).map _
termination_by 8 * ts.length + 1
decreasing_by all_goals omega

theorem readOperand_takes (ts : List Lexeme) : (readOperand ts).Takes Lexeme.IsKnown := by
  rw [readOperand]
  exact (readAtom_takes ts).andThen fun t us le => readSuffixes_takes t us
termination_by 8 * ts.length + 1
decreasing_by all_goals omega

theorem readSuffixes_takes (type : TypeExpr) (ts : List Lexeme) :
    (readSuffixes type ts).Takes Lexeme.IsKnown := by
  rw [readSuffixes]
  refine takes_onNext (fun t _ _ => isKnown_of_isTight (by decide) t) (fun _ us lt => ?_)
    (takes_done type)
  refine takes_onNext (fun t _ _ => isKnown_of_isKind (by decide) t) (fun _ vs lt' => ?_) ?_
  · exact readSuffixes_takes (.array type) vs
  · refine (readType_takes us).andThen fun key vs le => ?_
    refine (takes_expectKind (by decide) _ vs).andThen fun _ ws le' => ?_
    exact readSuffixes_takes (.offset type key) ws
termination_by 8 * ts.length
decreasing_by all_goals omega

theorem readAtom_takes (ts : List Lexeme) : (readAtom ts).Takes Lexeme.IsKnown := by
  match ts with
  | [] =>
    rw [readAtom]
    exact takes_fail _
  | t :: us =>
    have hknown : ∀ {kind : LexemeKind}, t.kind = kind → kind ≠ .other → t.IsKnown := by
      rintro kind rfl hkind
      exact hkind
    rw [readAtom]
    split
    · next hkind =>
      refine Takes.behind ?_ (hknown hkind (by decide))
      exact (readType_takes us).andThen fun inner vs le => (takes_expectKind (by decide) _ vs).map _
    · next hkind => exact (takes_done _).behind (hknown hkind (by decide))
    · next hkind => exact (takes_done _).behind (hknown hkind (by decide))
    · next hkind => exact (takes_done _).behind (hknown hkind (by decide))
    · next hkind => exact (takes_done _).behind (hknown hkind (by decide))
    · next hkind => exact (readNamed_takes t.text us).behind (hknown hkind (by decide))
    · exact takes_fail _
termination_by 8 * ts.length
decreasing_by all_goals rw [List.length_cons]; omega

theorem readNamed_takes (name : String) (ts : List Lexeme) :
    (readNamed name ts).Takes Lexeme.IsKnown := by
  have htight : ∀ {kind : LexemeKind} {b : Bool} {t : Lexeme}, kind ≠ .other →
      (isTight kind t && b) = true → t.IsKnown :=
    fun hkind ht => isKnown_of_isTight hkind _ (Bool.and_eq_true _ _ ▸ ht : _ ∧ _).1
  rw [readNamed]
  refine takes_onNext (fun t _ _ => isKnown_of_isTight (by decide) t) (fun _ us lt => ?_) ?_
  · exact (takes_constantName us).map _
  refine takes_onNext (fun t _ _ => isKnown_of_isTight (by decide) t) (fun _ us lt => ?_) ?_
  · refine (readArgs_takes us).andThen fun args vs le => ?_
    split
    · exact takes_fail _
    · exact takes_done _
  refine takes_onNext (fun t _ _ => htight (by decide)) (fun _ us lt => ?_) ?_
  · exact (readItems_takes us).map _
  refine takes_onNext (fun t _ _ => htight (by decide)) (fun _ us lt => ?_) (takes_done _)
  refine (readParams_takes us).andThen fun params vs le => ?_
  refine (takes_expectKind (by decide) _ vs).andThen fun _ ws le' => ?_
  exact (readReturns_takes ws).map _
termination_by 8 * ts.length + 3
decreasing_by all_goals omega

theorem readArgs_takes (ts : List Lexeme) : (readArgs ts).Takes Lexeme.IsKnown := by
  rw [readArgs]
  refine takes_onNext (fun t _ _ => isKnown_of_isKind (by decide) t)
    (fun _ us _ => takes_done []) ?_
  refine takes_onNext (fun t _ _ => isKnown_of_isKind (by decide) t) (fun _ us lt => ?_) ?_
  · exact (readMoreArgs_takes us).map _
  split
  · next hvariance =>
    refine takes_onNext (fun t us hts _ => ?_) (fun _ us lt => ?_) (takes_fail _)
    · exact isKnown_of_isVariance (hts ▸ hvariance)
    · exact (readType_takes us).andThen fun t vs le => (readMoreArgs_takes vs).map _
  · exact (readType_takes ts).andThen fun t us le => (readMoreArgs_takes us).map _
termination_by 8 * ts.length + 4
decreasing_by all_goals omega

theorem readMoreArgs_takes (ts : List Lexeme) : (readMoreArgs ts).Takes Lexeme.IsKnown := by
  rw [readMoreArgs]
  refine takes_onNext (fun t _ _ => isKnown_of_isKind (by decide) t)
    (fun _ us lt => readArgs_takes us) ?_
  exact (takes_expectKind (by decide) _ ts).map _
termination_by 8 * ts.length
decreasing_by all_goals omega

theorem readItems_takes (ts : List Lexeme) : (readItems ts).Takes Lexeme.IsKnown := by
  rw [readItems]
  refine takes_onNext (fun t _ _ => isKnown_of_isKind (by decide) t) (fun _ _ _ => takes_done _) ?_
  refine takes_onNext (fun t _ _ => isKnown_of_isKind (by decide) t) (fun _ us lt => ?_) ?_
  · refine Takes.andThen ?_ fun _ us₁ le₁ => ?_
    · refine takes_onNext (fun t _ _ => isKnown_of_isTight (by decide) t) (fun _ vs lt' => ?_)
        (takes_done ())
      refine (readArgs_takes vs).andThen fun args ws le => ?_
      split
      · exact takes_fail _
      · exact takes_done ()
    refine (takes_skipKind (by decide) us₁).andThen fun _ us₂ le₂ => ?_
    exact (takes_expectKind (by decide) _ us₂).map _
  · refine (takes_shapeKey ts).andThen fun found us le => ?_
    refine (readType_takes us).andThen fun value vs le' => ?_
    exact (readMoreItems_takes vs).map _
termination_by 8 * ts.length + 4
decreasing_by all_goals omega

theorem readMoreItems_takes (ts : List Lexeme) : (readMoreItems ts).Takes Lexeme.IsKnown := by
  rw [readMoreItems]
  refine takes_onNext (fun t _ _ => isKnown_of_isKind (by decide) t)
    (fun _ us lt => readItems_takes us) ?_
  exact (takes_expectKind (by decide) _ ts).map _
termination_by 8 * ts.length
decreasing_by all_goals omega

theorem readParams_takes (ts : List Lexeme) : (readParams ts).Takes Lexeme.IsKnown := by
  rw [readParams]
  split
  · exact takes_done []
  · refine (readType_takes ts).andThen fun type us₁ le₁ => ?_
    refine (takes_skipKind (by decide) us₁).andThen fun byRef us₂ le₂ => ?_
    refine (takes_skipKind (by decide) us₂).andThen fun variadic us₃ le₃ => ?_
    refine (takes_takeVariable us₃).andThen fun name us₄ le₄ => ?_
    refine (takes_skipKind (by decide) us₄).andThen fun isOptional us₅ le₅ => ?_
    refine takes_onNext (fun t _ _ => isKnown_of_isKind (by decide) t) (fun _ vs lt => ?_)
      (takes_done _)
    exact (readParams_takes vs).map _
termination_by 8 * ts.length + 4
decreasing_by all_goals omega

theorem readReturns_takes (ts : List Lexeme) : (readReturns ts).Takes Lexeme.IsKnown := by
  rw [readReturns]
  refine takes_onNext (fun t _ _ => isKnown_of_isKind (by decide) t) (fun _ us lt => ?_)
    (takes_done _)
  refine takes_onNext (fun t _ _ => isKnown_of_isKind (by decide) t) (fun _ vs lt' => ?_)
    (readOperand_takes us)
  exact (readOperand_takes vs).map _
termination_by 8 * ts.length
decreasing_by all_goals omega

end

end PhpHandbook.DocBlock
