import PhpHandbook.Proofs.TypeSteps

/-!
# Printed types are read back

A type that was read from some text and is printed again is read back as the same type, and nothing
is left over, if it is unambiguous everywhere.

The readers are followed along the lexemes of the printed type.  A type is read back in front of
whatever no type goes on with.  An operand is read back in a stronger sense: in front of suffixes it
is the type that the suffixes are added to.  So an array or offset type is read back if what is in
front of its bracket is.

## Main definitions

* `ReadsBack`: a type is read back from its lexemes, as a type and as an operand.
* `ItemReadsBack`, `ParamReadsBack`: the same for entries of shapes and for parameters.

## Main statements

* `TypeExpr.readsBack`: types that are spelled with lexemes and unambiguous everywhere are read
  back.
* `readType_text`: types that were read and are unambiguous everywhere are read back from their
  text.
-/

namespace PhpHandbook.DocBlock

open Reading

/-! ### Types that are read back -/

/-- **A type is read back** from its lexemes: as a type, in front of what no type goes on with, and
as an operand, if it can be one, in front of its suffixes.  What is nullable is read back behind a
`?`. -/
structure ReadsBack (t : TypeExpr) : Prop where
  begins : ∀ gap, BeginsWith t.isNullable (t.isCompound || t.isOnThis) (t.printed gap)
  type : ∀ gap rest, Closes rest → (readType (t.printed gap ++ rest)).Reads t rest
  operand : t.isNullable = false → t.isJoined = false → ∀ gap rest, Stops rest →
    (t.isCallable = true → Ends rest) → ∀ u rest', (readSuffixes t rest).Reads u rest' →
      (readOperand (t.printed gap ++ rest)).Reads u rest'
  inner : ∀ inner, t = .nullable inner → ∀ gap rest, Ends rest →
    (readOperand (wrapped inner.isCompound inner.printed gap ++ rest)).Reads inner rest

namespace ReadsBack

variable {t u : TypeExpr} {ts : List TypeExpr} {gap : List Char} {rest rest' : List Lexeme}

/-- An operand is read back in front of its suffixes, with or without parentheses. -/
theorem wrapped (h : ReadsBack t) (hnullable : t.isNullable = false) (gap : List Char)
    (hstops : Stops rest) (hcallable : t.isCallable = true → Ends rest)
    (hsuffixes : (readSuffixes t rest).Reads u rest') :
    (readOperand (wrapped t.isCompound t.printed gap ++ rest)).Reads u rest' := by
  unfold DocBlock.wrapped
  cases hcompound : t.isCompound with
  | true =>
    have htype := h.type [] (.ofMark [] .parenClose :: rest) (closes_ofMark rfl _ _)
    rw [if_pos rfl, List.cons_append, List.append_assoc, List.singleton_append]
    exact readOperand_of_atom (readAtom_paren htype gap) hsuffixes
  | false =>
    have hjoined : t.isJoined = false := by
      cases t <;> first | rfl | cases hcompound
    exact h.operand hnullable hjoined gap rest hstops hcallable u rest' hsuffixes

/-- An operand is read back in front of what no operand goes on with. -/
theorem wrapped_of_ends (h : ReadsBack t) (hnullable : t.isNullable = false) (gap : List Char)
    (hends : Ends rest) :
    (readOperand (DocBlock.wrapped t.isCompound t.printed gap ++ rest)).Reads t rest :=
  h.wrapped hnullable gap hends.stops (fun _ => hends) (readSuffixes_of_ends hends t)

end ReadsBack

/-! ### Lists that are read back -/

section Lists

variable {ts : List TypeExpr} {gap : List Char} {rest : List Lexeme}

/-- A member of a union and what follows it. -/
theorem readUnion_cons {t : TypeExpr} (h : ReadsBack t) (hnullable : t.isNullable = false)
    {us : List Lexeme} (hus : Ends us) (hmore : (readUnion us).Reads ts rest) :
    (readUnion (.ofMark [] .pipe :: (wrapped t.isCompound t.printed [] ++ us))).Reads
    (t :: ts) rest := by
  rw [readUnion]
  exact reads_onNext rfl ((h.wrapped_of_ends hnullable [] hus).andThen fun _ => hmore.map rfl)

theorem readUnion_printed (h : ∀ t ∈ ts, ReadsBack t ∧ t.isNullable = false) (hne : ts ≠ [])
    (hrest : Closes rest) :
    (readUnion
    (.ofMark [] .pipe :: (separated .pipe [] (TypeExpr.printedOperands ts) [] ++ rest))).Reads
      ts rest := by
  induction ts with
  | nil => exact absurd rfl hne
  | cons t ts ih =>
    obtain ⟨ht, hnullable⟩ := h t List.mem_cons_self
    cases ts with
    | nil =>
      refine readUnion_cons ht hnullable hrest.toEnds ?_
      rw [readUnion]
      exact reads_onNext_no hrest.pipe (reads_done [])
    | cons u us =>
      have hmore := ih (fun v hv => h v (List.mem_cons_of_mem t hv)) (List.cons_ne_nil u us)
      rw [TypeExpr.printedOperands, TypeExpr.printedOperands, separated_append]
      exact readUnion_cons ht hnullable (ends_pipe _) hmore

/-- A further member of an intersection and what follows it. -/
theorem readIntersection_cons {t : TypeExpr} (h : ReadsBack t) (hnullable : t.isNullable = false)
    (hthis : t.isOnThis = false) {us : List Lexeme} (hus : Ends us)
    (hmore : (readIntersection us).Reads ts rest) :
    joinsTypes (.ofMark [] .ampersand :: (wrapped t.isCompound t.printed [] ++ us)) = true ∧
      (readIntersection (.ofMark [] .ampersand :: (wrapped t.isCompound t.printed [] ++ us))).Reads
        (t :: ts) rest := by
  have hbegins := TypeExpr.beginsWith_wrapped h.begins []
  rw [hthis] at hbegins
  have hjoins := (hbegins.append us).joinsTypes []
  refine ⟨hjoins, ?_⟩
  rw [readIntersection, hjoins, if_pos rfl]
  exact reads_onNext rfl ((h.wrapped_of_ends hnullable [] hus).andThen fun _ => hmore.map rfl)

theorem readIntersection_printed
    (h : ∀ t ∈ ts, ReadsBack t ∧ t.isNullable = false ∧ t.isOnThis = false)
    (hne : ts ≠ []) (hrest : Closes rest) :
    joinsTypes (.ofMark [] .ampersand
        :: (separated .ampersand [] (TypeExpr.printedOperands ts) [] ++ rest)) = true ∧
      (readIntersection (.ofMark [] .ampersand
        :: (separated .ampersand [] (TypeExpr.printedOperands ts) [] ++ rest))).Reads ts rest := by
  induction ts with
  | nil => exact absurd rfl hne
  | cons t ts ih =>
    obtain ⟨ht, hnullable, hthis⟩ := h t List.mem_cons_self
    cases ts with
    | nil =>
      refine readIntersection_cons ht hnullable hthis hrest.toEnds ?_
      rw [readIntersection, hrest.ampersand, if_neg Bool.false_ne_true]
      exact reads_done []
    | cons u us =>
      obtain ⟨-, hmore⟩ :=
        ih (fun v hv => h v (List.mem_cons_of_mem t hv)) (List.cons_ne_nil u us)
      rw [TypeExpr.printedOperands, TypeExpr.printedOperands, separated_append]
      exact readIntersection_cons ht hnullable hthis (ends_ampersand _) hmore

/-- An argument and what follows it. -/
theorem readArgs_cons {t : TypeExpr} (h : ReadsBack t) (gap : List Char) {us : List Lexeme}
    (hus : Closes us) (hmore : (readMoreArgs us).Reads ts rest) :
    (readArgs (t.printed gap ++ us)).Reads (t :: ts) rest := by
  have hbegins := (h.begins gap).append us
  -- the words for a variance are reserved, so the argument is not taken for one
  have hvariance : isVariance (t.printed gap ++ us) = false := by
    obtain ⟨l, more, hl, hfront⟩ := hbegins
    rw [hl]
    cases more with
    | nil => rfl
    | cons m more =>
      rw [isVariance, hfront.word "covariant" (by decide +kernel),
        hfront.word "contravariant" (by decide +kernel)]
      rfl
  rw [readArgs]
  refine reads_onNext_no (hbegins.not_isKind .angleClose rfl) ?_
  refine reads_onNext_no (hbegins.not_isKind .star rfl) ?_
  rw [hvariance, if_neg Bool.false_ne_true]
  exact (h.type gap us hus).andThen fun _ => hmore.map rfl

theorem readArgs_printed (h : ∀ t ∈ ts, ReadsBack t) (hne : ts ≠ []) (gap : List Char)
    (rest : List Lexeme) :
    (readArgs (separated .comma [' '] (TypeExpr.printedAll ts) gap
      ++ .ofMark [] .angleClose :: rest)).Reads ts rest := by
  induction ts generalizing gap with
  | nil => exact absurd rfl hne
  | cons t ts ih =>
    have ht := h t List.mem_cons_self
    cases ts with
    | nil =>
      refine readArgs_cons ht gap (closes_ofMark rfl _ _) ?_
      rw [readMoreArgs]
      exact reads_onNext_no rfl ((reads_expect rfl _ rest).map rfl)
    | cons u us =>
      have hmore := ih (fun v hv => h v (List.mem_cons_of_mem t hv)) (List.cons_ne_nil u us) [' ']
      rw [TypeExpr.printedAll, TypeExpr.printedAll, separated_append]
      refine readArgs_cons ht gap (closes_ofMark rfl _ _) ?_
      rw [readMoreArgs]
      exact reads_onNext rfl hmore

/-- The key of an entry is read in front of its colon. -/
theorem shapeKey_of_isKey {key : String} (hkey : IsKey key) (isOptional : Bool) (gap : List Char)
    (rest : List Lexeme) :
    (shapeKey (.ofWord gap key :: ((if isOptional then [Lexeme.ofMark [] .question] else [])
      ++ .ofMark [] .colon :: rest))).Reads (some key, isOptional) rest := by
  have hkind : (isKind .identifier (.ofWord gap key) || isKind .integer (.ofWord gap key)
      || isKind .quoted (.ofWord gap key)) = true := by
    rcases hkey with h | h | h <;> rw [isKind, isKind, isKind, kind_ofWord h gap] <;> rfl
  cases isOptional with
  | false =>
    simp only [shapeKey, hkind, if_true, Lexeme.text_ofWord]
    exact ⟨rfl, rfl⟩
  | true =>
    simp only [shapeKey, hkind, if_true, Lexeme.text_ofWord]
    exact ⟨rfl, rfl⟩

/-- An entry of a shape is read back: its value is, and is not taken for a key. -/
structure ItemReadsBack (item : ShapeItem TypeExpr) : Prop where
  spelled : item.Spelled
  value : ReadsBack item.value
  unkeyed : ∀ gap us, us.head?.any isKeyMark = false → Unkeyed (item.value.printed gap ++ us)

/-- An entry of a shape and what follows it. -/
theorem readItems_cons {item : ShapeItem TypeExpr} (h : ItemReadsBack item) (gap : List Char)
    {us : List Lexeme} (hus : Closes us) (hmark : us.head?.any isKeyMark = false)
    {items : List (ShapeItem TypeExpr)} {isSealed : Bool}
    (hmore : (readMoreItems us).Reads (items, isSealed) rest) :
    (readItems (TypeExpr.printedEntry item.key item.isOptional item.value.printed gap ++ us)).Reads
      (item :: items, isSealed) rest := by
  obtain ⟨key, isOptional, value⟩ := item
  rw [readItems]
  cases key with
  | none =>
    obtain rfl : isOptional = false := h.spelled.isOptional rfl
    have hbegins := (h.value.begins gap).append us
    refine reads_onNext_no (hbegins.not_isKind .curlyClose rfl) ?_
    refine reads_onNext_no (hbegins.not_isKind .ellipsis rfl) ?_
    refine (shapeKey_of_unkeyed (h.unkeyed gap us hmark)).andThen fun _ => ?_
    exact (h.value.type gap us hus).andThen fun _ => hmore.map rfl
  | some key =>
    have hkey := h.spelled.key key rfl
    obtain ⟨kind, hkind, hlexeme⟩ := hkey.exists_kind
    rw [TypeExpr.printedEntry, List.cons_append, List.append_assoc, List.cons_append]
    refine reads_onNext_no (not_isKind_ofWord hlexeme hkind rfl gap) ?_
    refine reads_onNext_no (not_isKind_ofWord hlexeme hkind rfl gap) ?_
    refine (shapeKey_of_isKey hkey isOptional gap _).andThen fun _ => ?_
    exact (h.value.type [' '] us hus).andThen fun _ => hmore.map rfl

/-- The dots of a shape that is not sealed. -/
theorem readItems_dots (gap : List Char) (rest : List Lexeme) :
    (readItems (.ofMark gap .ellipsis :: .ofMark [] .curlyClose :: rest)).Reads
    ([], false) rest := by
  rw [readItems]
  refine reads_onNext_no rfl (reads_onNext rfl ?_)
  refine Reads.andThen (reads_onNext_no rfl (reads_done ())) fun _ => ?_
  exact (reads_skip_no rfl).andThen fun _ => (reads_expect rfl _ rest).map rfl

theorem readItems_printed {items : List (ShapeItem TypeExpr)}
    (h : ∀ item ∈ items, ItemReadsBack item) (isSealed : Bool) (gap : List Char)
    (rest : List Lexeme) :
    (readItems
    (separated .comma [' '] (TypeExpr.printedItems items ++ TypeExpr.printedDots isSealed) gap
      ++ .ofMark [] .curlyClose :: rest)).Reads (items, isSealed) rest := by
  induction items generalizing gap with
  | nil =>
    cases isSealed with
    | true =>
      rw [TypeExpr.printedItems, TypeExpr.printedDots, if_pos rfl, List.append_nil,
        separated, readItems]
      exact reads_onNext rfl (reads_done _)
    | false => exact readItems_dots gap rest
  | cons item items ih =>
    have hitem := h item List.mem_cons_self
    have hmore := ih (fun other hother => h other (List.mem_cons_of_mem item hother)) [' ']
    rw [TypeExpr.printedItems, List.cons_append]
    cases hparts : TypeExpr.printedItems items ++ TypeExpr.printedDots isSealed with
    | nil =>
      -- nothing follows: the entries end here, and so the shape is sealed
      obtain ⟨hitems, hdots⟩ := List.append_eq_nil_iff.1 hparts
      rw [TypeExpr.printedItems_eq, List.map_eq_nil_iff] at hitems
      obtain rfl : isSealed = true := by
        cases isSealed with
        | true => rfl
        | false => cases hdots
      subst hitems
      refine readItems_cons hitem gap (closes_ofMark rfl _ _) rfl ?_
      rw [readMoreItems]
      exact reads_onNext_no rfl ((reads_expect rfl _ rest).map rfl)
    | cons next parts =>
      -- a comma follows, and behind it the other entries or the dots
      rw [hparts] at hmore
      rw [separated_append]
      refine readItems_cons hitem gap (closes_ofMark rfl _ _) rfl ?_
      rw [readMoreItems]
      exact reads_onNext rfl hmore

/-! ### Parameters -/

/-- What is not next in either of two lists is not next in both together. -/
theorem not_next_append {ls ms : List Lexeme} {p : Lexeme → Bool} (hls : ls.head?.any p = false)
    (hms : ms.head?.any p = false) : (ls ++ ms).head?.any p = false := by
  cases ls with
  | nil => exact hms
  | cons l ls => exact hls

theorem not_next_if {l : Lexeme} {p : Lexeme → Bool} (hl : p l = false) (present : Bool) :
    (if present then [l] else []).head?.any p = false := by
  cases present with
  | false => rfl
  | true => exact hl

theorem not_next_toList {name : Option String} {gap : List Char} {p : Lexeme → Bool}
    (hname : ∀ n, name = some n → p (.ofWord gap n) = false) :
    (name.toList.map (Lexeme.ofWord gap)).head?.any p = false := by
  cases name with
  | none => rfl
  | some n => exact hname n rfl

theorem isVariable_of_isVariable {name : String} (h : IsVariable name) (gap : List Char) :
    (Lexeme.ofWord gap name).isVariable = true := by
  rcases h with h | h <;> rw [Lexeme.isVariable, kind_ofWord h gap] <;> rfl

/-- A mark that may be left out. -/
theorem skipKind_if {ls : List Lexeme} {kind : LexemeKind}
    (hls : ls.head?.any (isKind kind) = false) (gap : List Char) (present : Bool) :
    (skipKind kind ((if present then [Lexeme.ofMark gap kind] else []) ++ ls)).Reads
      present ls := by
  cases present with
  | false => exact reads_skip_no hls
  | true => exact reads_skip (by simp [isKind]) ls

/-- A name that may be left out. -/
theorem takeVariable_toList {ls : List Lexeme} (hls : ls.head?.any Lexeme.isVariable = false)
    {name : Option String} (hname : ∀ n, name = some n → IsVariable n) (gap : List Char) :
    (takeVariable (name.toList.map (.ofWord gap) ++ ls)).Reads name ls := by
  cases name with
  | none => exact (reads_take?_no hls).map rfl
  | some n => exact (reads_take? (isVariable_of_isVariable (hname n rfl) gap) ls).map (by simp)

/-- No type goes on with what is printed behind the type of a parameter. -/
theorem closes_printedTail {name : Option String} (hname : ∀ n, name = some n → IsVariable n)
    {byRef variadic : Bool} (hmarked : byRef = true → variadic = true ∨ name.isSome = true)
    (isOptional : Bool) {ls : List Lexeme} (hls : Closes ls) :
    Closes (TypeExpr.printedTail byRef variadic name isOptional ++ ls) := by
  cases byRef with
  | true =>
    -- behind the `&` stand dots or a name, so it joins no types
    rcases variadic with _ | _
    · obtain ⟨n, rfl⟩ :=
        Option.isSome_iff_exists.1 ((hmarked rfl).resolve_left Bool.false_ne_true)
      have hvariable := isVariable_of_isVariable (hname n rfl) []
      refine ⟨⟨rfl, rfl⟩, rfl, ?_, rfl⟩
      change (true && !((Lexeme.ofWord [] n).isVariable || isKind .ellipsis (.ofWord [] n))) = false
      rw [hvariable]
      rfl
    · exact ⟨⟨rfl, rfl⟩, rfl, rfl, rfl⟩
  | false =>
    cases variadic with
    | true => exact closes_ofMark rfl _ _
    | false =>
      cases name with
      | some n => exact closes_variable (hname n rfl) _ _
      | none =>
        cases isOptional with
        | true => exact closes_ofMark rfl _ _
        | false => exact hls

/-- A parameter is read back: its type is, and an `&` behind the type is taken for its own. -/
structure ParamReadsBack (param : CallableParam TypeExpr) : Prop where
  spelled : param.Spelled
  type : ReadsBack param.type
  marked : param.byRef = true → param.variadic = true ∨ param.name.isSome = true

/-- A parameter and what follows it. -/
theorem readParams_cons {param : CallableParam TypeExpr} (h : ParamReadsBack param)
    (gap : List Char) {kind : LexemeKind} (hkind : kind = .comma ∨ kind = .parenClose)
    (us : List Lexeme) {params : List (CallableParam TypeExpr)}
    (hmore : ∀ found, (Reading.onNext (isKind .comma) (.ofMark [] kind :: us)
      (fun _ vs _ => (readParams vs).map (found :: ·)) (.done [found])).Reads
        (found :: params) rest) :
    (readParams (param.type.printed gap
      ++ TypeExpr.printedTail param.byRef param.variadic param.name param.isOptional
      ++ .ofMark [] kind :: us)).Reads (param :: params) rest := by
  obtain ⟨type, byRef, variadic, name, isOptional⟩ := param
  have hparam : ∀ n, name = some n → IsVariable n := h.spelled
  have hclose : Closes (.ofMark [] kind :: us) := by
    rcases hkind with rfl | rfl <;> exact closes_ofMark rfl _ _
  have hnext : ∀ {p : Lexeme → Bool}, p (.ofMark [] .comma) = false →
      p (.ofMark [] .parenClose) = false →
      (Lexeme.ofMark [] kind :: us).head?.any p = false := by
    intro p hcomma hparen
    rcases hkind with rfl | rfl
    · exact hcomma
    · exact hparen
  have hname : ∀ {mark : LexemeKind} {gap : List Char}, mark.isWritten = false →
      (name.toList.map (Lexeme.ofWord gap)).head?.any (isKind mark) = false := by
    intro mark gap hmark
    refine not_next_toList fun n hn => ?_
    obtain ⟨kind, hkind, hlexeme⟩ := (hparam n hn).exists_kind
    exact not_isKind_ofWord hlexeme hkind hmark gap
  have hfront := ((h.type.begins gap).append (TypeExpr.printedTail byRef variadic name isOptional
    ++ .ofMark [] kind :: us)).not_isKind .parenClose rfl
  have htail := closes_printedTail hparam h.marked isOptional hclose
  rw [List.append_assoc]
  rw [TypeExpr.printedTail, List.append_assoc, List.append_assoc, List.append_assoc]
    at htail hfront ⊢
  rw [readParams, hfront, if_neg Bool.false_ne_true]
  -- each reader takes its own mark or nothing: what stands behind it is not that mark
  refine (h.type.type gap _ htail).andThen fun _ => ?_
  refine (skipKind_if (not_next_append (not_next_if rfl _) (not_next_append (hname rfl)
    (not_next_append (not_next_if rfl _) (hnext rfl rfl)))) _ _).andThen fun _ => ?_
  refine (skipKind_if (not_next_append (hname rfl)
    (not_next_append (not_next_if rfl _) (hnext rfl rfl))) _ _).andThen fun _ => ?_
  refine (takeVariable_toList (not_next_append (not_next_if rfl _) (hnext rfl rfl))
    hparam _).andThen
    fun _ => ?_
  exact (skipKind_if (hnext rfl rfl) _ _).andThen fun _ => hmore _

theorem readParams_printed {params : List (CallableParam TypeExpr)}
    (h : ∀ param ∈ params, ParamReadsBack param) (gap : List Char) (rest : List Lexeme) :
    (readParams (separated .comma [' '] (TypeExpr.printedParams params) gap
      ++ .ofMark [] .parenClose :: rest)).Reads params (.ofMark [] .parenClose :: rest) := by
  induction params generalizing gap with
  | nil =>
    rw [TypeExpr.printedParams, separated, readParams]
    exact reads_done []
  | cons param params ih =>
    have hparam := h param List.mem_cons_self
    have hmore := ih (fun other hother => h other (List.mem_cons_of_mem param hother)) [' ']
    cases params with
    | nil =>
      exact readParams_cons hparam gap (.inr rfl) rest fun found =>
        reads_onNext_no rfl (reads_done _)
    | cons next params =>
      rw [TypeExpr.printedParams, TypeExpr.printedParams, separated_append]
      exact readParams_cons hparam gap (.inl rfl) _ fun found =>
        reads_onNext rfl (hmore.map rfl)

/-! ### Conditionals and returns -/

theorem skipWord_not {ls : List Lexeme} (hls : ls.head?.any (Lexeme.isWord "not") = false)
    (negated : Bool) :
    (skipWord "not" ((if negated then [Lexeme.ofWord [' '] "not"] else []) ++ ls)).Reads
      negated ls := by
  cases negated with
  | true => exact reads_skip (by decide +kernel) ls
  | false => exact reads_skip_no hls

theorem isWord_is (gap : List Char) : (Lexeme.ofWord gap "is").isWord "is" = true := by
  rw [Lexeme.isWord, kind_ofWord TypeExpr.isIdentifier_is gap, Lexeme.chars_ofWord]
  simp

/-- The lexemes of a conditional from its `is` on, in front of others. -/
def fromIs (negated : Bool) (target yes no : TypeExpr) (rest : List Lexeme) : List Lexeme :=
  .ofWord [' '] "is" :: ((if negated then [.ofWord [' '] "not"] else [])
    ++ (target.printed [' '] ++ .ofMark [' '] .question
      :: (yes.printed [' '] ++ .ofMark [' '] .colon :: (no.printed [' '] ++ rest))))

theorem printed_conditional_append (subject : Subject TypeExpr) (negated : Bool)
    (target yes no : TypeExpr) (gap : List Char) (rest : List Lexeme) :
    TypeExpr.printed (.conditional subject negated target yes no) gap ++ rest
      = .ofMark gap .parenOpen :: (TypeExpr.printedSubject subject []
        ++ fromIs negated target yes no (.ofMark [] .parenClose :: rest)) := by
  simp [TypeExpr.printed, fromIs]

/-- A conditional is read from its `is` on. -/
theorem readConditional_fromIs (subject : Subject TypeExpr) (negated : Bool)
    {target yes no : TypeExpr} (htarget : ReadsBack target) (hyes : ReadsBack yes)
    (hno : ReadsBack no) (hrest : Closes rest) :
    (readConditional subject (fromIs negated target yes no rest)).Reads
      (.conditional subject negated target yes no) rest := by
  have hnot := ((htarget.begins [' ']).append (.ofMark [' '] .question :: (yes.printed [' ']
    ++ .ofMark [' '] .colon :: (no.printed [' '] ++ rest)))).head? fun l hl =>
      hl.word "not" (by decide +kernel)
  rw [readConditional, fromIs]
  refine reads_onNext (isWord_is _) ((skipWord_not hnot negated).andThen fun _ => ?_)
  refine (htarget.type [' '] _ (closes_ofMark rfl _ _)).andThen fun _ => ?_
  refine (reads_expect rfl _ _).andThen fun _ => ?_
  refine (hyes.type [' '] _ (closes_ofMark rfl _ _)).andThen fun _ => ?_
  refine (reads_expect rfl _ _).andThen fun _ => ?_
  exact (hno.type [' '] rest hrest).map rfl

/-- The parentheses of a conditional hold it together. -/
theorem readAtom_conditional {subject : Subject TypeExpr} (hsubject : subject.Spelled)
    (hasked : ∀ u ∈ subject.types, ReadsBack u ∧ u.isNullable = false ∧ u.isJoined = false)
    (negated : Bool) {target yes no : TypeExpr} (htarget : ReadsBack target) (hyes : ReadsBack yes)
    (hno : ReadsBack no) (gap : List Char) (rest : List Lexeme) :
    (readAtom (TypeExpr.printed (.conditional subject negated target yes no) gap ++ rest)).Reads
      (.conditional subject negated target yes no) rest := by
  have hclose : Closes (.ofMark [] .parenClose :: rest) := closes_ofMark rfl _ _
  have hbody := readConditional_fromIs subject negated htarget hyes hno hclose
  have his : (fromIs negated target yes no (.ofMark [] .parenClose :: rest)).head?.any
      (Lexeme.isWord "is") = true := isWord_is [' ']
  rw [printed_conditional_append]
  refine readAtom_paren ?_ gap
  cases subject with
  | parameter name =>
    refine readType_parameter (startsParameterConditional_ofWord hsubject his []) ?_
    rw [Lexeme.text_ofWord]
    exact hbody
  | type asked =>
    obtain ⟨hread, hnullable, hjoined⟩ := hasked asked (List.mem_singleton_self _)
    have hends : Ends (fromIs negated target yes no (.ofMark [] .parenClose :: rest)) :=
      ends_ofWord TypeExpr.isIdentifier_is rfl [' '] _
    have hoperand := hread.operand hnullable hjoined [] _ hends.stops (fun _ => hends) asked _
      (readSuffixes_of_ends hends asked)
    exact readType_conditional hoperand his hbody

/-- The type that a callable returns; a `?` in front of it is read here as well. -/
theorem readReturns_printed {t : TypeExpr} (h : ReadsBack t) (hrest : Ends rest) :
    (readReturns (.ofMark [] .colon :: (wrapped t.isCompound t.printed [' '] ++ rest))).Reads
      t rest := by
  rw [readReturns]
  refine reads_onNext rfl ?_
  cases hnullable : t.isNullable with
  | false =>
    have hbegins := (TypeExpr.beginsWith_wrapped h.begins [' ']).append rest
    rw [hnullable] at hbegins
    exact reads_onNext_no hbegins.not_question (h.wrapped_of_ends hnullable [' '] hrest)
  | true =>
    cases t with
    | nullable inner => exact reads_onNext rfl ((h.inner inner rfl [] rest hrest).map rfl)
    | _ => cases hnullable

end Lists

/-! ### Every type -/

namespace TypeExpr

variable {t : TypeExpr}

/-- What is read back as an operand is read back. -/
theorem readsBack_of_operand (hnullable : t.isNullable = false)
    (hbegins : ∀ gap, BeginsWith t.isNullable (t.isCompound || t.isOnThis) (t.printed gap))
    (hoperand : ∀ gap rest, Stops rest → (t.isCallable = true → Ends rest) → ∀ u rest',
      (readSuffixes t rest).Reads u rest' → (readOperand (t.printed gap ++ rest)).Reads u rest') :
    ReadsBack t where
  begins := hbegins
  type gap rest hrest := by
    have hends := hrest.toEnds
    exact readType_of_operand
      (hoperand gap rest hends.stops (fun _ => hends) t rest (readSuffixes_of_ends hends t)) hrest
  operand _ _ := hoperand
  inner inner h := by
    rw [h] at hnullable
    cases hnullable

/-- What is read back as an atom is read back. -/
theorem readsBack_of_atom (hnullable : t.isNullable = false)
    (hbegins : ∀ gap, BeginsWith t.isNullable (t.isCompound || t.isOnThis) (t.printed gap))
    (hatom : ∀ gap rest, Stops rest → (t.isCallable = true → Ends rest) →
      (readAtom (t.printed gap ++ rest)).Reads t rest) : ReadsBack t :=
  readsBack_of_operand hnullable hbegins fun gap rest hstops hcallable _ _ hsuffixes =>
    readOperand_of_atom (hatom gap rest hstops hcallable) hsuffixes

theorem readsBack_union {members : List TypeExpr} (hlength : 2 ≤ members.length)
    (h : ∀ u ∈ members, ReadsBack u ∧ u.isNullable = false)
    (hbegins : ∀ gap, BeginsWith false true (printed (.union members) gap)) :
    ReadsBack (.union members) where
  begins := hbegins
  type gap rest hrest := by
    match members, hlength with
    | t :: u :: us, _ =>
      obtain ⟨ht, hnullable⟩ := h t List.mem_cons_self
      have hmore := readUnion_printed (fun v hv => h v (List.mem_cons_of_mem t hv))
        (List.cons_ne_nil u us) hrest
      rw [printed, printedOperands, printedOperands, separated_append]
      exact readType_joined (ht.wrapped_of_ends hnullable gap (ends_pipe _)) rfl
        (readJoined_union hmore t)
  operand _ hjoined := by cases hjoined
  inner _ h := by cases h

theorem readsBack_intersection {members : List TypeExpr} (hlength : 2 ≤ members.length)
    (h : ∀ u ∈ members, ReadsBack u ∧ u.isNullable = false)
    (hthis : ∀ u ∈ members.tail, u.isOnThis = false)
    (hbegins : ∀ gap, BeginsWith false true (printed (.intersection members) gap)) :
    ReadsBack (.intersection members) where
  begins := hbegins
  type gap rest hrest := by
    match members, hlength with
    | t :: u :: us, _ =>
      obtain ⟨ht, hnullable⟩ := h t List.mem_cons_self
      obtain ⟨hjoins, hmore⟩ := readIntersection_printed
        (fun v hv => ⟨(h v (List.mem_cons_of_mem t hv)).1, (h v (List.mem_cons_of_mem t hv)).2,
          hthis v hv⟩)
        (List.cons_ne_nil u us) hrest
      rw [printed, printedOperands, printedOperands, separated_append]
      exact readType_joined (ht.wrapped_of_ends hnullable gap (ends_ampersand _)) rfl
        (readJoined_intersection hjoins hmore t)
  operand _ hjoined := by cases hjoined
  inner _ h := by cases h

theorem readsBack_nullable {inner : TypeExpr} (h : ReadsBack inner)
    (hnullable : inner.isNullable = false) :
    ReadsBack (.nullable inner) where
  begins _ := beginsWith_question _
  type gap rest hrest := readType_nullable rfl (h.wrapped_of_ends hnullable [] hrest.toEnds)
  operand hnullable := by cases hnullable
  inner _ hinner gap rest hrest := by
    cases hinner
    exact h.wrapped_of_ends hnullable gap hrest

/-- **Types that are spelled with lexemes and unambiguous everywhere are read back.** -/
theorem readsBack (h : t.Readable) : ReadsBack t := by
  -- the parts of a type are read back first: each reader then stops where the next part begins
  induction h with
  | @intro t here within ih =>
    have hbegins := beginsWith_printed (.intro here within)
    obtain ⟨hspelled, hclear⟩ := here
    cases t with
    | identifier name =>
      exact readsBack_of_atom rfl hbegins fun gap rest hstops _ =>
        readAtom_named hspelled (readNamed_of_stops hstops name) gap
    | generic base args =>
      refine readsBack_of_atom rfl hbegins fun gap rest _ _ => ?_
      rw [printed, List.cons_append, List.cons_append, List.append_assoc]
      exact readAtom_named hspelled.1
        (readNamed_generic hspelled.2 (readArgs_printed ih hspelled.2 [] rest) base) gap
    | union members =>
      exact readsBack_union hspelled (fun u hu => ⟨ih u hu, hclear.nullable u hu⟩) hbegins
    | intersection members =>
      exact readsBack_intersection hspelled (fun u hu => ⟨ih u hu, hclear.nullable u hu⟩)
        hclear.joined hbegins
    | nullable inner =>
      exact readsBack_nullable (ih inner (List.mem_singleton_self _))
        (hclear.nullable inner (List.mem_singleton_self _))
    | array inner =>
      have hinner := ih inner (List.mem_singleton_self _)
      have hnullable := hclear.nullable inner (List.mem_singleton_self _)
      have hcallable := hclear.callable inner (List.mem_singleton_self _)
      refine readsBack_of_operand rfl hbegins fun gap rest _ _ u rest' hsuffixes => ?_
      rw [printed, List.append_assoc]
      exact hinner.wrapped hnullable gap rfl (fun h => by rw [hcallable] at h; cases h)
        (readSuffixes_array hsuffixes)
    | offset base key =>
      have hbase := ih base List.mem_cons_self
      have hkey := ih key (List.mem_cons_of_mem _ (List.mem_singleton_self _))
      have hnullable := hclear.nullable base (List.mem_singleton_self _)
      have hcallable := hclear.callable base (List.mem_singleton_self _)
      refine readsBack_of_operand rfl hbegins fun gap rest _ _ u rest' hsuffixes => ?_
      rw [printed, List.append_assoc, List.cons_append, List.append_assoc]
      refine hbase.wrapped hnullable gap rfl (fun h => by rw [hcallable] at h; cases h) ?_
      exact readSuffixes_offset (((hkey.begins []).append _).not_isKind .squareClose rfl)
        (hkey.type [] _ (closes_ofMark rfl _ _)) hsuffixes
    | arrayShape kind items isSealed =>
      have hitems : ∀ item ∈ items, ItemReadsBack item :=
        fun item hitem => ⟨hspelled.2.2 item hitem, ih _ (List.mem_map_of_mem hitem),
          unkeyed_printed (within _ (List.mem_map_of_mem hitem))⟩
      refine readsBack_of_atom rfl hbegins fun gap rest _ _ => ?_
      rw [printed, List.cons_append, List.cons_append, List.append_assoc]
      exact readAtom_named hspelled.1
        (readNamed_arrayShape hspelled.2.1 (readItems_printed hitems isSealed [] rest)) gap
    | objectShape items =>
      -- no dots are printed, so the list is the one of a sealed shape
      have hitems : ∀ item ∈ items, ItemReadsBack item :=
        fun item hitem => ⟨hspelled item hitem, ih _ (List.mem_map_of_mem hitem),
          unkeyed_printed (within _ (List.mem_map_of_mem hitem))⟩
      refine readsBack_of_atom rfl hbegins fun gap rest _ _ => ?_
      rw [printed, List.cons_append, List.cons_append, List.append_assoc]
      have hread := readItems_printed hitems true [] rest
      rw [printedDots, if_pos rfl, List.append_nil] at hread
      exact readAtom_named isIdentifier_object (readNamed_objectShape hread) gap
    | literal value =>
      cases value with
      | integer text =>
        exact readsBack_of_atom rfl hbegins fun gap rest _ _ => readAtom_integer hspelled gap rest
      | decimal text =>
        exact readsBack_of_atom rfl hbegins fun gap rest _ _ => readAtom_decimal hspelled gap rest
      | string value =>
        exact readsBack_of_atom rfl hbegins fun gap rest _ _ =>
          readAtom_string (hclear.string value rfl) gap rest
      | classConstant className name =>
        exact readsBack_of_atom rfl hbegins fun gap rest hstops _ =>
          readAtom_named hspelled.1 (readNamed_constant hspelled.2 hstops className) gap
    | this => exact readsBack_of_atom rfl hbegins fun gap rest _ _ => readAtom_this gap rest
    | conditional subject negated target yes no =>
      have hbranch : ∀ u ∈ [target, yes, no], ReadsBack u :=
        fun u hu => ih u (List.mem_append_right subject.types hu)
      refine readsBack_of_atom rfl hbegins fun gap rest _ _ => ?_
      exact readAtom_conditional hspelled (fun u hu => ⟨ih u (List.mem_append_left _ hu),
        hclear.nullable u hu, hclear.subject u hu⟩) negated (hbranch target (by simp))
        (hbranch yes (by simp)) (hbranch no (by simp)) gap rest
    | callable name params returns =>
      have hparams : ∀ param ∈ params, ParamReadsBack param :=
        fun param hparam => ⟨hspelled.2.2 param hparam,
          ih _ (List.mem_append_left _ (List.mem_map_of_mem hparam)),
          hclear.param name params returns rfl param hparam⟩
      have hreturns := ih returns (List.mem_append_right _ (List.mem_singleton_self _))
      refine readsBack_of_atom rfl hbegins fun gap rest _ hends => ?_
      rw [printed, List.cons_append, List.cons_append, List.append_assoc, List.cons_append,
        List.cons_append]
      exact readAtom_named hspelled.1 (readNamed_callable hspelled.2.1
        (readParams_printed hparams [] _) (readReturns_printed hreturns (hends rfl))) gap

end TypeExpr

/-- **Types are read back from their text**: a type that was read from some text, and is unambiguous
everywhere, is read again from its printed form, to the end of it. -/
theorem readType_text (text : String) (t : TypeExpr)
    (hread : (readType (lexemes text.toList)).outcome = .ok t)
    (hclear : t.Everywhere TypeExpr.Unambiguous) :
    (readType (lexemes t.text.toList)).outcome = .ok t ∧
      unread (readType (lexemes t.text.toList)).rest = "" := by
  have hspelled := readType_spelled _ (genuine_lexemes text.toList) t hread
  have hboth := hspelled.and hclear
  obtain ⟨houtcome, hrest⟩ := (TypeExpr.readsBack hboth).type [] [] closes_nil
  rw [List.append_nil] at houtcome hrest
  rw [TypeExpr.lexemes_text hboth, houtcome, hrest]
  exact ⟨rfl, rfl⟩

/-- A shape beside a name: the blanks are printed in their usual places, and the word behind the
type is left out. -/
theorem readType_text_shape :
    (readType (lexemes "array\x7bid?: ?int, ...\x7d|null".toList)).outcome
      = .ok
        (.union [.arrayShape "array" [⟨some "id", true, .nullable (.identifier "int")⟩] false,
          .identifier "null"]) := by
  have hname : ∀ name, isReserved name = false →
      (TypeExpr.identifier name).Everywhere TypeExpr.Unambiguous := by
    intro name hname
    refine .intro ?_ (List.forall_mem_nil _)
    constructor <;> simp [hname]
  have hnullable : (TypeExpr.nullable (.identifier "int")).Everywhere TypeExpr.Unambiguous := by
    refine .intro ?_ (List.forall_mem_singleton.2 (hname "int" (by decide +kernel)))
    constructor <;> simp
  have hshape : (TypeExpr.arrayShape "array" [⟨some "id", true, .nullable (.identifier "int")⟩]
      false).Everywhere TypeExpr.Unambiguous := by
    refine .intro ?_ (List.forall_mem_singleton.2 hnullable)
    constructor <;> simp
  have hunion :
      (TypeExpr.union [.arrayShape "array" [⟨some "id", true, .nullable (.identifier "int")⟩]
      false, .identifier "null"]).Everywhere TypeExpr.Unambiguous := by
    refine .intro ?_ (List.forall_mem_cons.2
      ⟨hshape, List.forall_mem_singleton.2 (hname "null" (by decide +kernel))⟩)
    constructor <;> simp
  have hback := readType_text "array\x7b id ? :?int,... \x7d|null rows" _
    (by with_unfolding_all rfl) hunion
  rw [show TypeExpr.text _ = "array\x7bid?: ?int, ...\x7d|null" by decide +kernel] at hback
  exact hback.1

end PhpHandbook.DocBlock
