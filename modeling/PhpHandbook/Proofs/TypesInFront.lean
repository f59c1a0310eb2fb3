import PhpHandbook.Proofs.TypeEnds
import PhpHandbook.Proofs.TypeRoundTrip

/-!
# Types in front of further lexemes

A type that was read from some lexemes is read again if further lexemes are put behind them.  The
readers look at what stands behind a type, so this depends on it: a `[` without a gap makes an
operand an array or offset type, a `|` makes it a member of a union, and the word `is` makes it the
subject of a conditional, if one can be read there.  Nothing else is looked for where a type ends,
except in a few places where the lexemes that are left tell that a type goes on or that the attempt
at a conditional is given up.

## Main definitions

* `Adjoins`: the lexemes that are put behind.
* `Settled`: what is left behind a type, where further lexemes do not change how it was read.

## Main statements

* `readType_append`: a type is read again in front of further lexemes.
* `readOperand_append`: so is an operand, and suffixes that are put behind it are added to it.
-/

namespace PhpHandbook.DocBlock

open Reading

/-! ### Lexemes that are put behind -/

/-- The marks that are put behind types here. -/
def LexemeKind.adjoins (kind : LexemeKind) : Bool :=
  [LexemeKind.squareOpen, .pipe, .parenClose].contains kind

/-- The kinds of lexemes that nothing put behind a type begins with. -/
def LexemeKind.isAside (kind : LexemeKind) : Bool :=
  !kind.adjoins && kind != .identifier

/-- **Lexemes that are put behind** a type: a suffix, a further member, what closes parentheses, or
the word `is`. -/
def Adjoins (r : List Lexeme) : Prop :=
  ∀ l, r.head? = some l → l.kind.adjoins = true ∨ l.isWord "is" = true

theorem adjoins_cons {l : Lexeme} (hl : l.kind.adjoins = true) (ls : List Lexeme) :
    Adjoins (l :: ls) := by
  intro m hm
  obtain rfl := Option.some.inj hm
  exact .inl hl

theorem adjoins_is {r : List Lexeme} (hword : r.head?.any (Lexeme.isWord "is") = true) :
    Adjoins r := by
  intro l hl
  rw [hl] at hword
  exact .inr hword

theorem kind_of_isKind {kind : LexemeKind} {l : Lexeme} (hl : isKind kind l = true) :
    l.kind = kind :=
  eq_of_beq hl

theorem kind_of_isTight {kind : LexemeKind} {l : Lexeme} (hl : isTight kind l = true) :
    l.kind = kind := by
  rw [isTight, Bool.and_eq_true] at hl
  exact kind_of_isKind hl.1

theorem kind_of_isWord {word : String} {l : Lexeme} (hl : l.isWord word = true) :
    l.kind = .identifier := by
  rw [Lexeme.isWord, Bool.and_eq_true] at hl
  exact kind_of_isKind hl.1

section Adjoins

variable {r : List Lexeme} {kind : LexemeKind}

/-- Where these lexemes stand, nothing else is next. -/
theorem Adjoins.not_next (hr : Adjoins r) {p : Lexeme → Bool}
    (hp : ∀ l, p l = true → l.kind.adjoins = false ∧ l.isWord "is" = false) :
    r.head?.any p = false := by
  cases r with
  | nil => rfl
  | cons l ls =>
    by_contra hl
    obtain ⟨hmark, hword⟩ := hp l (by simpa using hl)
    rcases hr l rfl with hl | hl
    · exact absurd (hl.symm.trans hmark) (by decide)
    · exact absurd (hl.symm.trans hword) (by decide)

theorem Adjoins.not_kind (hr : Adjoins r) (hkind : kind.isAside = true) {p : Lexeme → Bool}
    (hp : ∀ l, p l = true → l.kind = kind) : r.head?.any p = false := by
  rw [LexemeKind.isAside, Bool.and_eq_true, bne_iff_ne, Bool.not_eq_true'] at hkind
  refine hr.not_next fun l hl => ?_
  obtain rfl := hp l hl
  refine ⟨hkind.1, ?_⟩
  by_contra hword
  exact hkind.2 (kind_of_isWord (by simpa using hword))

theorem Adjoins.not_isKind (hr : Adjoins r) (hkind : kind.isAside = true) :
    r.head?.any (isKind kind) = false :=
  hr.not_kind hkind fun _ => kind_of_isKind

theorem Adjoins.not_isTight (hr : Adjoins r) (hkind : kind.isAside = true) :
    r.head?.any (isTight kind) = false :=
  hr.not_kind hkind fun _ => kind_of_isTight

theorem Adjoins.not_isTight_and (hr : Adjoins r) (hkind : kind.isAside = true) (b : Bool) :
    (r.head?.any fun l => isTight kind l && b) = false :=
  hr.not_kind hkind fun _ hl => kind_of_isTight (Bool.and_eq_true _ _ ▸ hl : _ ∧ _).1

/-- Of the words of the grammar only `is` stands there. -/
theorem Adjoins.not_isWord (hr : Adjoins r) (word : String)
    (hother : word.toList.map Char.toLower ≠ "is".toList.map Char.toLower) :
    r.head?.any (Lexeme.isWord word) = false := by
  refine hr.not_next fun l hl => ⟨kind_of_isWord hl ▸ rfl, ?_⟩
  by_contra his
  rw [Bool.not_eq_false, Lexeme.isWord, Bool.and_eq_true, beq_iff_eq, beq_iff_eq] at his
  rw [Lexeme.isWord, Bool.and_eq_true, beq_iff_eq, beq_iff_eq] at hl
  exact hother (hl.2.symm.trans his.2)

theorem Adjoins.not_isVariable (hr : Adjoins r) : r.head?.any Lexeme.isVariable = false := by
  refine hr.not_next fun l hl => ?_
  have hkind : l.kind.adjoins = false ∧ l.kind ≠ .identifier := by
    rw [Lexeme.isVariable, Bool.or_eq_true, beq_iff_eq, beq_iff_eq] at hl
    rcases hl with hl | hl
    · rw [hl]
      decide
    · rw [hl]
      decide
  refine ⟨hkind.1, ?_⟩
  by_contra hword
  exact hkind.2 (kind_of_isWord (by simpa using hword))

end Adjoins

/-! ### Small readers -/

section Words

variable {ts vs r : List Lexeme}

theorem takeVariable_append (hr : Adjoins r) {name : Option String}
    (h : (takeVariable ts).Reads name vs) :
    (takeVariable (ts ++ r)).Reads name (vs ++ r) := by
  obtain ⟨found, hfound, rfl⟩ := reads_map_iff.1 h
  exact (hfound.take?_append hr.not_isVariable).map rfl

theorem constantName_append (hr : Adjoins r) {name : String} (h : (constantName ts).Reads name vs) :
    (constantName (ts ++ r)).Reads name (vs ++ r) := by
  refine h.onNext_append (fun _ => hr.not_isKind rfl) (fun _ us _ _ _ _ h => ?_) fun _ h => ?_
  · obtain ⟨rfl, rfl⟩ := reads_done_iff.1 h
    exact reads_done _
  -- a name is looked for here, but not at the end
  refine h.onNext_append ?_ (fun t us _ _ _ _ h => ?_) fun _ h => ?_
  · rintro rfl
    exact absurd h (not_reads_fail _)
  · obtain ⟨wild, hwild, rfl⟩ := reads_map_iff.1 h
    exact (hwild.skip_append (hr.not_isTight rfl)).map rfl
  · exact absurd h (not_reads_fail _)

theorem shapeKey_append (hr : Adjoins r) (hts : ts ≠ []) {found : Option String × Bool}
    (h : (shapeKey ts).Reads found vs) : (shapeKey (ts ++ r)).Reads found (vs ++ r) := by
  have hcolon : r.head?.any (isKind .colon) = false := hr.not_isKind rfl
  have hquestion : r.head?.any (isKind .question) = false := hr.not_isKind rfl
  match ts, r with
  | ts, [] =>
    rw [List.append_nil, List.append_nil]
    exact h
  | [], _ :: _ => exact absurd rfl hts
  | [t], l :: ls =>
    have hl : isKind .colon l = false ∧ isKind .question l = false :=
      ⟨by simpa using hcolon, by simpa using hquestion⟩
    simp only [shapeKey, ite_self] at h
    obtain ⟨rfl, rfl⟩ := reads_done_iff.1 h
    refine shapeKey_of_unkeyed (.inr ?_)
    simp [isKeyMark, hl]
  | [t, u], l :: ls =>
    have hl : isKind .colon l = false := by simpa using hcolon
    simp only [List.cons_append, List.nil_append, shapeKey, hl, Bool.and_false, Bool.false_eq_true,
      if_false] at h ⊢
    split_ifs at h ⊢ with hkey hu
    · obtain ⟨houtcome, rfl⟩ := h
      exact ⟨houtcome, rfl⟩
    · obtain ⟨rfl, rfl⟩ := reads_done_iff.1 h
      exact reads_done _
    · obtain ⟨rfl, rfl⟩ := reads_done_iff.1 h
      exact reads_done _
  | t :: u :: v :: ts, l :: ls =>
    simp only [List.cons_append, shapeKey] at h ⊢
    split_ifs at h ⊢ with hkey hu hv
    · obtain ⟨houtcome, rfl⟩ := h
      exact ⟨houtcome, rfl⟩
    · obtain ⟨houtcome, rfl⟩ := h
      exact ⟨houtcome, rfl⟩
    · obtain ⟨rfl, rfl⟩ := reads_done_iff.1 h
      exact reads_done _
    · obtain ⟨rfl, rfl⟩ := reads_done_iff.1 h
      exact reads_done _

end Words

/-! ### What is left behind a type -/

/-- **What is left behind a type**, where lexemes that are put behind do not change how it was read:
only a closing parenthesis, or an `is` that begins no conditional, is put behind a type that took
everything, and what is left begins neither with a word nor with an `&` alone. -/
inductive Settled (r : List Lexeme) : List Lexeme → Prop
  | nil (hr : ∀ l, r.head? = some l → l.kind = .parenClose) : Settled r []
  | abandoned (hr : r.head?.any (Lexeme.isWord "is") = true)
      (hno : ∀ first t vs, ¬ (readConditional (.type first) r).Reads t vs) : Settled r []
  | cons {l : Lexeme} {ls : List Lexeme} (hl : l.kind ≠ .identifier)
      (hls : l.kind = .ampersand → ls ≠ []) : Settled r (l :: ls)

section Settled

variable {ts us vs r : List Lexeme}

theorem next_of_expectKind {kind : LexemeKind} {text : String} {l : Lexeme}
    (h : (expectKind kind text us).Reads l vs) : us.head?.any (isKind kind) = true := by
  obtain ⟨m, ms, -, rfl, hm, -⟩ | ⟨-, h⟩ := h.branches
  · exact hm
  · exact absurd h (not_reads_fail _)

theorem Settled.of_next (kind : LexemeKind) (h : us.head?.any (isKind kind) = true)
    (hkind : kind ≠ .identifier ∧ kind ≠ .ampersand) : Settled r us := by
  cases us with
  | nil => cases h
  | cons l ls =>
    have hl : l.kind = kind := kind_of_isKind h
    exact .cons (hl.symm ▸ hkind.1) fun hampersand => absurd (hl.symm.trans hampersand) hkind.2

theorem Settled.of_expectKind {kind : LexemeKind} {text : String} {l : Lexeme}
    (h : (expectKind kind text us).Reads l vs)
    (hkind : kind ≠ .identifier ∧ kind ≠ .ampersand) :
    Settled r us :=
  .of_next kind (next_of_expectKind h) hkind

/-- A lexeme in front, other than a word, leaves things settled. -/
theorem Settled.in_front (hs : Settled r vs) (hvs : vs ≠ [])
    (hus : (∃ l, us = l :: vs ∧ l.kind ≠ .identifier) ∨ us = vs) :
    Settled r us ∧ us ≠ [] := by
  obtain ⟨l, rfl, hl⟩ | rfl := hus
  · exact ⟨.cons hl fun _ => hvs, List.cons_ne_nil _ _⟩
  · exact ⟨hs, hvs⟩

theorem Settled.head (hs : Settled r vs) (hvs : vs = []) (kind : LexemeKind)
    (hkind : kind ≠ .parenClose ∧ kind ≠ .identifier) {p : Lexeme → Bool}
    (hp : ∀ l, p l = true → l.kind = kind) : r.head?.any p = false := by
  have hnone : ∀ front : LexemeKind, kind ≠ front →
      (∀ l, r.head? = some l → l.kind = front) →
      r.head?.any p = false := by
    intro front hfront hr
    cases r with
    | nil => rfl
    | cons l ls =>
      by_contra hl
      have hl := hp l (by simpa using hl)
      exact hfront (hl.symm.trans (hr l rfl))
  cases hs with
  | nil hr => exact hnone _ hkind.1 hr
  | abandoned hr hno =>
    refine hnone _ hkind.2 fun l hl => ?_
    rw [hl] at hr
    exact kind_of_isWord hr
  | cons hl hls => cases hvs

theorem Settled.not_square (hs : Settled r vs) (hvs : vs = []) :
    r.head?.any (isTight .squareOpen) = false :=
  hs.head hvs .squareOpen (by decide) fun _ => kind_of_isTight

theorem Settled.not_pipe (hs : Settled r vs) (hvs : vs = []) : r.head?.any (isKind .pipe) = false :=
  hs.head hvs .pipe (by decide) fun _ => kind_of_isKind

theorem Settled.not_word (hs : Settled r vs) (word : String) :
    vs.head?.any (Lexeme.isWord word) = false := by
  cases hs with
  | nil hr => rfl
  | abandoned hr hno => rfl
  | cons hl hls => exact isWord_of_kind hl word

/-- No conditional begins with what is put behind a type that took everything. -/
theorem Settled.not_readConditional (hs : Settled r vs) (hvs : vs = []) (first t : TypeExpr)
    (ws : List Lexeme) : ¬ (readConditional (.type first) r).Reads t ws := by
  cases hs with
  | nil hr =>
    refine DocBlock.not_readConditional ?_ t ws
    cases r with
    | nil => rfl
    | cons l ls => exact isWord_of_kind (by rw [hr l rfl]; decide) "is"
  | abandoned hr hno => exact hno first t ws
  | cons hl hls => cases hvs

theorem Settled.joinsTypes_append (hs : Settled r vs) : joinsTypes (vs ++ r) = joinsTypes vs := by
  cases hs with
  | nil hr =>
    cases r with
    | nil => rfl
    | cons l ls => exact joinsTypes_cons (by simp [isKind, hr l rfl]) ls
  | abandoned hr hno =>
    cases r with
    | nil => rfl
    | cons l ls => exact joinsTypes_cons (by simp [isKind, kind_of_isWord hr]) ls
  | @cons l ls hl hls =>
    cases ls with
    | nil =>
      have hl : isKind .ampersand l = false := by simpa [isKind] using fun h => hls h
      exact (joinsTypes_cons hl r).trans (joinsTypes_cons hl []).symm
    | cons m ms => rfl

end Settled

/-! ### What is next -/

section Heads

variable {ts vs r : List Lexeme} {t : TypeExpr}

/-- What is next in front of further lexemes is what was next. -/
theorem next_append {p : Lexeme → Bool} (h : ts.head?.any p = true) (r : List Lexeme) :
    (ts ++ r).head?.any p = true := by
  cases ts with
  | nil => cases h
  | cons l ls => exact h

/-- What was not next is not next in front of lexemes that it is not either. -/
theorem not_next_append_of {p : Lexeme → Bool} (h : ts.head?.any p = false)
    (hr : ts = [] → r.head?.any p = false) : (ts ++ r).head?.any p = false := by
  cases ts with
  | nil => exact hr rfl
  | cons l ls => exact h

theorem startsParameterConditional_append (h : startsParameterConditional ts = true)
    (r : List Lexeme) :
    startsParameterConditional (ts ++ r) = true := by
  match ts, h with
  | _ :: _ :: _, h => exact h

theorem joinsTypes_append_of (h : joinsTypes ts = true) (r : List Lexeme) :
    joinsTypes (ts ++ r) = true := by
  match ts, h with
  | _ :: _ :: _, h => exact h

theorem isVariance_append_of (h : isVariance ts = true) (r : List Lexeme) :
    isVariance (ts ++ r) = true := by
  match ts, h with
  | _ :: _ :: _, h => exact h

theorem not_isVariance_append (hr : Adjoins r) (h : isVariance ts = false)
    (hword : ∀ l, ts = [l] → l.kind ≠ .identifier) : isVariance (ts ++ r) = false := by
  have hnot : ∀ {l : Lexeme} (ls : List Lexeme),
      l.isWord "covariant" = false → l.isWord "contravariant" = false →
      isVariance (l :: ls) = false := by
    intro l ls hco hcontra
    cases ls with
    | nil => rfl
    | cons m ms => simp [isVariance, hco, hcontra]
  cases ts with
  | nil =>
    have hco := hr.not_isWord "covariant" (by decide)
    have hcontra := hr.not_isWord "contravariant" (by decide)
    cases r with
    | nil => rfl
    | cons l ls => exact hnot ls hco hcontra
  | cons l ls =>
    cases ls with
    | nil => exact hnot r (isWord_of_kind (hword l rfl) _) (isWord_of_kind (hword l rfl) _)
    | cons m ms => exact h

/-- Behind an argument stands a comma or what closes the list. -/
theorem head_of_readMoreArgs {args : List TypeExpr} (h : (readMoreArgs ts).Reads args vs) :
    ∃ l ls, ts = l :: ls ∧ (l.kind = .comma ∨ l.kind = .angleClose) := by
  rw [readMoreArgs] at h
  obtain ⟨l, ls, -, rfl, hl, -⟩ | ⟨-, h⟩ := h.branches
  · exact ⟨l, ls, rfl, .inl (kind_of_isKind hl)⟩
  · obtain ⟨l, hl, -⟩ := reads_map_iff.1 h
    obtain ⟨l, ls, -, rfl, hl, -⟩ | ⟨-, h⟩ := hl.branches
    · exact ⟨l, ls, rfl, .inr (kind_of_isKind hl)⟩
    · exact absurd h (not_reads_fail _)

theorem settled_of_readMoreArgs {args : List TypeExpr} (h : (readMoreArgs ts).Reads args vs) :
    Settled r ts := by
  obtain ⟨l, ls, rfl, hl⟩ := head_of_readMoreArgs h
  refine .cons ?_ fun hampersand => ?_
  · rcases hl with hl | hl <;> rw [hl] <;> decide
  · rcases hl with hl | hl <;> cases hl.symm.trans hampersand

/-- What belongs to a parameter behind its type leaves the type settled. -/
theorem settled_of_paramTail {us₁ us₂ us₃ us₄ us₅ : List Lexeme}
    {byRef variadic isOptional : Bool} {name : Option String}
    (hbyRef : (skipKind .ampersand us₁).Reads byRef us₂)
    (hvariadic : (skipKind .ellipsis us₂).Reads variadic us₃)
    (hname : (takeVariable us₃).Reads name us₄)
    (hoptional : (skipKind .equals us₄).Reads isOptional us₅)
    (h : Settled r us₅ ∧ us₅ ≠ []) :
    Settled r us₁ := by
  have hskip :
      ∀ {kind : LexemeKind} {us vs : List Lexeme} {found : Bool}, kind ≠ .identifier →
      (skipKind kind us).Reads found vs → Settled r vs ∧ vs ≠ [] →
      Settled r us ∧ us ≠ [] := by
    intro kind us vs found hkind hfound hvs
    refine hvs.1.in_front hvs.2 ?_
    exact hfound.skip_cases.imp_left fun ⟨l, hus, hl⟩ =>
      ⟨l, hus, kind_of_isKind hl ▸ hkind⟩
  have h := hskip (by decide) hoptional h
  obtain ⟨found, hfound, -⟩ := reads_map_iff.1 hname
  have h := h.1.in_front h.2 (hfound.take?_cases.imp_left fun ⟨l, hus, hl⟩ => ⟨l, hus, by
    rintro hkind
    simp [Lexeme.isVariable, hkind] at hl⟩)
  exact (hskip (by decide) hbyRef (hskip (by decide) hvariadic h)).1

theorem settled_of_readMoreItems {found : List (ShapeItem TypeExpr) × Bool}
    (h : (readMoreItems ts).Reads found vs) : Settled r ts := by
  rw [readMoreItems] at h
  obtain ⟨l, ls, -, rfl, hl, -⟩ | ⟨-, h⟩ := h.branches
  · exact .of_next .comma hl (by decide)
  · obtain ⟨l, hl, -⟩ := reads_map_iff.1 h
    exact .of_expectKind hl (by decide)

/-- Where a joined type was settled, no attempt at a conditional was given up. -/
theorem not_word_of_readJoined {first : TypeExpr} (h : (readJoined first ts).Reads t vs)
    (hs : Settled r vs) : ts.head?.any (Lexeme.isWord "is") = false := by
  by_contra hword
  rw [Bool.not_eq_false] at hword
  cases ts with
  | nil => cases hword
  | cons l ls =>
    -- a word joins nothing, so it would be left
    have hl : ∀ kind : LexemeKind, kind ≠ .identifier → isKind kind l = false := by
      intro kind hkind
      rw [isKind, kind_of_isWord hword, beq_eq_false_iff_ne]
      exact hkind.symm
    have hpipe : (l :: ls).head?.any (isKind .pipe) = false := hl .pipe (by decide)
    rw [readJoined, hpipe, joinsTypes_cons (hl .ampersand (by decide))] at h
    obtain ⟨-, rfl⟩ := reads_done_iff.1 h
    rw [hs.not_word] at hword
    cases hword

/-- An operand takes a lexeme. -/
theorem readOperand_advances (ts : List Lexeme) : (readOperand ts).Advances := by
  rw [readOperand]
  refine Advances.andThen ?_ _
  cases ts with
  | nil =>
    rw [readAtom]
    exact advances_fail _
  | cons l ls =>
    rw [readAtom]
    split
    case h_7 => exact advances_fail _
    all_goals exact advances_behind l _

/-- **A type takes a lexeme.** -/
theorem readType_advances (ts : List Lexeme) : (readType ts).Advances := by
  rw [readType]
  split
  · exact Advances.onNext (advances_fail _)
  · exact Advances.onNext ((readOperand_advances ts).andThen _)

theorem ne_nil_of_readType (h : (readType ts).Reads t vs) : ts ≠ [] := by
  rintro rfl
  exact Nat.not_lt_zero _ (readType_advances [] t h.1)

/-- With nothing left there is no suffix. -/
theorem readSuffixes_nil {type : TypeExpr} (h : (readSuffixes type []).Reads t vs) :
    t = type ∧ vs = [] := by
  rw [readSuffixes] at h
  obtain ⟨rfl, rfl⟩ := reads_done_iff.1 h
  exact ⟨rfl, rfl⟩

theorem readSuffixes_of_not_square (h : ts.head?.any (isTight .squareOpen) = false) (t : TypeExpr) :
    (readSuffixes t ts).Reads t ts := by
  rw [readSuffixes]
  exact reads_onNext_no h (reads_done t)

/-- No suffix is left behind an operand. -/
theorem not_square_of_readOperand (h : (readOperand ts).Reads t vs) :
    vs.head?.any (isTight .squareOpen) = false := by
  rw [readOperand] at h
  obtain ⟨atom, us, -, -, h⟩ := h.steps
  exact (readSuffixes_cases h).1

end Heads

/-! ### Readers of types -/

/-- **A reader reads the same in front of further lexemes**, under a condition on what it read and
left. -/
def Steady {α : Type} (condition : α → List Lexeme → Prop) (r : List Lexeme)
    (read : (ts : List Lexeme) → Read α ts) (ts : List Lexeme) : Prop :=
  ∀ a vs, (read ts).Reads a vs → condition a vs → (read (ts ++ r)).Reads a (vs ++ r)

/-- The further lexemes are no suffix of what a callable returns. -/
def Unsuffixed (r : List Lexeme) (t : TypeExpr) (vs : List Lexeme) : Prop :=
  vs = [] → t.isCallable = true → r.head?.any (isTight .squareOpen) = false

/-- **An operand goes on with suffixes** among the further lexemes. -/
def Suffixed (r ts : List Lexeme) : Prop :=
  ∀ t vs, (readOperand ts).Reads t vs → ∀ u ws, Unsuffixed r t vs →
    (readSuffixes t (vs ++ r)).Reads u ws → (readOperand (ts ++ r)).Reads u ws

/-- And so do suffixes. -/
def SuffixesSteady (r : List Lexeme) (type : TypeExpr) (ts : List Lexeme) : Prop :=
  ∀ t vs, (readSuffixes type ts).Reads t vs →
    ∀ u ws, (readSuffixes t (vs ++ r)).Reads u ws →
    (readSuffixes type (ts ++ r)).Reads u ws

/-- **All readers of types** read the same in front of further lexemes, from lists of a measure:
that of the recursion of the readers. -/
structure SteadyAt (r : List Lexeme) (n : Nat) : Prop where
  type : ∀ ts, 8 * ts.length + 3 = n → Steady (fun _ => Settled r) r readType ts
  joined : ∀ first ts, 8 * ts.length + 2 = n →
    Steady (fun _ => Settled r) r (readJoined first) ts
  union : ∀ ts, 8 * ts.length + 1 = n → Steady (fun _ => Settled r) r readUnion ts
  intersection : ∀ ts, 8 * ts.length + 1 = n → Steady (fun _ => Settled r) r readIntersection ts
  conditional : ∀ subject ts, 8 * ts.length + 1 = n →
    Steady (fun _ => Settled r) r (readConditional subject) ts
  suffixed : ∀ ts, 8 * ts.length + 1 = n → Suffixed r ts
  suffixes : ∀ type ts, 8 * ts.length = n → SuffixesSteady r type ts
  atom : ∀ ts, 8 * ts.length = n → Steady (Unsuffixed r) r readAtom ts
  named : ∀ name ts, 8 * ts.length + 3 = n → Steady (Unsuffixed r) r (readNamed name) ts
  args : ∀ ts, 8 * ts.length + 4 = n → Steady (fun _ _ => True) r readArgs ts
  moreArgs : ∀ ts, 8 * ts.length = n → Steady (fun _ _ => True) r readMoreArgs ts
  items : ∀ ts, 8 * ts.length + 4 = n → Steady (fun _ _ => True) r readItems ts
  moreItems : ∀ ts, 8 * ts.length = n → Steady (fun _ _ => True) r readMoreItems ts
  params : ∀ ts, 8 * ts.length + 4 = n →
    Steady (fun _ vs => vs.head?.any (isKind .parenClose) = true) r readParams ts
  returns : ∀ ts, 8 * ts.length = n →
    Steady (fun _ vs => vs = [] → r.head?.any (isTight .squareOpen) = false) r readReturns ts

/-- All readers that a reader of this measure calls. -/
abbrev SteadyBelow (r : List Lexeme) (n : Nat) : Prop :=
  ∀ m, m < n → SteadyAt r m

section Steps

variable {r ts : List Lexeme}

/-- An operand that does not go on is read the same. -/
theorem SteadyAt.operand {n : Nat} (h : SteadyAt r n) (hn : 8 * ts.length + 1 = n) {t : TypeExpr}
    {vs : List Lexeme} (ht : (readOperand ts).Reads t vs)
    (hsquare : vs = [] → r.head?.any (isTight .squareOpen) = false) :
    (readOperand (ts ++ r)).Reads t (vs ++ r) := by
  refine h.suffixed ts hn t vs ht t _ (fun hvs _ => hsquare hvs) ?_
  exact readSuffixes_of_not_square (not_next_append_of (not_square_of_readOperand ht) hsquare) t

theorem readType_steady (ih : SteadyBelow r (8 * ts.length + 3)) :
    Steady (fun _ => Settled r) r readType ts := by
  rintro t vs h hs
  obtain ⟨name, us, _, rfl, hstarts, hbody⟩ |
    ⟨question, us, inner, _, rfl, hquestion, rfl, hinner⟩ |
    ⟨first, us, _, hfirst, hword, hbody⟩ | ⟨first, us, _, hfirst, hjoined⟩ :=
      readType_cases h
  · exact readType_parameter (startsParameterConditional_append hstarts r)
      ((ih _ (by omega)).conditional _ _ rfl _ _ hbody hs)
  · exact readType_nullable hquestion ((ih _ (by omega)).operand rfl hinner hs.not_square)
  · have hoperand := (ih _ (by omega)).operand rfl hfirst (by rintro rfl; cases hword)
    exact readType_conditional hoperand (next_append hword r)
      ((ih _ (by omega)).conditional _ _ rfl _ _ hbody hs)
  · have hoperand :=
      (ih _ (by omega)).operand rfl hfirst fun hnil => hs.not_square (hjoined.eq_nil hnil)
    refine readType_abandoned hoperand ?_ ((ih _ (by omega)).joined _ _ rfl _ _ hjoined hs)
    -- an attempt is made where something is left, or else at the further lexemes
    cases us with
    | nil => exact hs.not_readConditional (hjoined.eq_nil rfl) first
    | cons l ls =>
      have hword : (l :: ls).head?.any (Lexeme.isWord "is") = false :=
        not_word_of_readJoined hjoined hs
      exact not_readConditional hword

theorem readJoined_steady (first : TypeExpr)
    (ih : SteadyBelow r (8 * ts.length + 2)) :
    Steady (fun _ => Settled r) r (readJoined first) ts := by
  rintro t vs h hs
  have hnil := h.eq_nil
  rw [readJoined] at h
  rw [readJoined]
  split_ifs at h with hpipe hjoins
  · obtain ⟨more, hmore, rfl⟩ := reads_map_iff.1 h
    rw [if_pos (next_append hpipe r)]
    exact ((ih _ (by omega)).union _ rfl _ _ hmore hs).map rfl
  · obtain ⟨more, hmore, rfl⟩ := reads_map_iff.1 h
    have hpipe := not_next_append_of (r := r) (by simpa using hpipe) fun hts =>
      hs.not_pipe (hnil hts)
    rw [hpipe, if_neg Bool.false_ne_true, if_pos (joinsTypes_append_of hjoins r)]
    exact ((ih _ (by omega)).intersection _ rfl _ _ hmore hs).map rfl
  · obtain ⟨rfl, rfl⟩ := reads_done_iff.1 h
    have hpipe := not_next_append_of (r := r) (by simpa using hpipe) fun hts =>
      hs.not_pipe (hnil hts)
    rw [hpipe, hs.joinsTypes_append, if_neg Bool.false_ne_true, if_neg hjoins]
    exact reads_done _

theorem readUnion_steady (ih : SteadyBelow r (8 * ts.length + 1)) :
    Steady (fun _ => Settled r) r readUnion ts := by
  rintro more vs h hs
  have hnil := h.eq_nil
  rw [readUnion] at h
  rw [readUnion]
  refine h.onNext_append (fun hts => hs.not_pipe (hnil hts)) (fun bar us _ _ _ _ h => ?_)
    fun _ h => ?_
  · obtain ⟨member, us₁, _, hmember, h⟩ := h.steps
    obtain ⟨more, hmore, rfl⟩ := reads_map_iff.1 h
    have hoperand := (ih _ (by omega)).operand rfl hmember fun hnil =>
      hs.not_square (hmore.eq_nil hnil)
    exact hoperand.andThen fun _ => ((ih _ (by omega)).union _ rfl _ _ hmore hs).map rfl
  · obtain ⟨rfl, rfl⟩ := reads_done_iff.1 h
    exact reads_done _

theorem readIntersection_steady (hr : Adjoins r) (ih : SteadyBelow r (8 * ts.length + 1)) :
    Steady (fun _ => Settled r) r readIntersection ts := by
  rintro more vs h hs
  rw [readIntersection] at h
  rw [readIntersection]
  split_ifs at h with hjoins
  · rw [if_pos (joinsTypes_append_of hjoins r)]
    refine h.onNext_append (fun _ => hr.not_isKind rfl) (fun mark us _ _ _ _ h => ?_) fun _ h => ?_
    · obtain ⟨member, us₁, _, hmember, h⟩ := h.steps
      obtain ⟨more, hmore, rfl⟩ := reads_map_iff.1 h
      have hoperand := (ih _ (by omega)).operand rfl hmember fun hnil =>
        hs.not_square (hmore.eq_nil hnil)
      exact hoperand.andThen fun _ => ((ih _ (by omega)).intersection _ rfl _ _ hmore hs).map rfl
    · obtain ⟨rfl, rfl⟩ := reads_done_iff.1 h
      exact reads_done _
  · obtain ⟨rfl, rfl⟩ := reads_done_iff.1 h
    rw [hs.joinsTypes_append, if_neg hjoins]
    exact reads_done _

theorem readConditional_steady (hr : Adjoins r) (subject : Subject TypeExpr)
    (ih : SteadyBelow r (8 * ts.length + 1)) :
    Steady (fun _ => Settled r) r (readConditional subject) ts := by
  rintro t vs h hs
  rw [readConditional] at h
  rw [readConditional]
  refine h.onNext_append ?_ (fun word us _ _ _ _ h => ?_) fun _ h => absurd h (not_reads_fail _)
  · rintro rfl
    exact absurd h (not_reads_fail _)
  obtain ⟨negated, us₁, _, hnegated, h⟩ := h.steps
  obtain ⟨target, us₂, _, htarget, h⟩ := h.steps
  obtain ⟨question, us₃, _, hquestion, h⟩ := h.steps
  obtain ⟨yes, us₄, _, hyes, h⟩ := h.steps
  obtain ⟨colon, us₅, _, hcolon, h⟩ := h.steps
  obtain ⟨no, hno, rfl⟩ := reads_map_iff.1 h
  refine (hnegated.skip_append (hr.not_isWord _ (by decide))).andThen fun _ => ?_
  refine ((ih _ (by omega)).type _ rfl _ _ htarget (.of_expectKind hquestion (by decide))).andThen
    fun _ => ?_
  refine (hquestion.expect_append r).andThen fun _ => ?_
  refine ((ih _ (by omega)).type _ rfl _ _ hyes (.of_expectKind hcolon (by decide))).andThen
    fun _ => ?_
  refine (hcolon.expect_append r).andThen fun _ => ?_
  exact ((ih _ (by omega)).type _ rfl _ _ hno hs).map rfl

theorem readOperand_suffixed (ih : SteadyBelow r (8 * ts.length + 1)) : Suffixed r ts := by
  rintro t vs h u ws hsquare hmore
  rw [readOperand] at h
  obtain ⟨atom, us, _, hatom, h⟩ := h.steps
  have hcallable : us = [] → atom.isCallable = true →
      r.head?.any (isTight .squareOpen) = false := by
    rintro rfl hcallable
    obtain ⟨rfl, rfl⟩ := readSuffixes_nil h
    exact hsquare rfl hcallable
  exact readOperand_of_atom ((ih _ (by omega)).atom _ rfl _ _ hatom hcallable)
    ((ih _ (by omega)).suffixes _ _ rfl _ _ h _ _ hmore)

theorem readSuffixes_steady (hr : Adjoins r) (type : TypeExpr)
    (ih : SteadyBelow r (8 * ts.length)) :
    SuffixesSteady r type ts := by
  rintro t vs h u ws hmore
  rw [readSuffixes] at h
  obtain ⟨bracket, us, _, rfl, hbracket, h⟩ | ⟨-, h⟩ := h.branches
  · rw [List.cons_append, readSuffixes]
    refine reads_onNext hbracket ?_
    refine h.onNext_append (fun _ => hr.not_isKind rfl) (fun closing us₁ _ _ _ _ h => ?_)
      fun _ h => ?_
    · exact (ih _ (by omega)).suffixes _ _ rfl _ _ h _ _ hmore
    · obtain ⟨key, us₁, _, hkey, h⟩ := h.steps
      obtain ⟨closing, us₂, _, hclosing, h⟩ := h.steps
      refine ((ih _ (by omega)).type _ rfl _ _ hkey (.of_expectKind hclosing (by decide))).andThen
        fun _ => ?_
      refine (hclosing.expect_append r).andThen fun _ => ?_
      exact (ih _ (by omega)).suffixes _ _ rfl _ _ h _ _ hmore
  · obtain ⟨rfl, rfl⟩ := reads_done_iff.1 h
    exact hmore

theorem readAtom_steady (ih : SteadyBelow r (8 * ts.length)) :
    Steady (Unsuffixed r) r readAtom ts := by
  rintro t vs h hsquare
  match ts with
  | [] =>
    rw [readAtom] at h
    exact absurd h (not_reads_fail _)
  | l :: us =>
    have hus : us.length < (l :: us).length := Nat.lt_succ_self _
    have hleaf : ∀ {leaf : TypeExpr},
        (Reading.behind l (.done leaf) : Read TypeExpr (l :: us)).Reads t vs →
        (Reading.behind l (.done leaf) : Read TypeExpr (l :: (us ++ r))).Reads t (vs ++ r) := by
      intro leaf h
      obtain ⟨rfl, rfl⟩ := reads_done_iff.1 h.of_behind
      exact (reads_done _).behind l
    rw [readAtom] at h
    rw [List.cons_append, readAtom]
    split at h
    · next hkind =>
      obtain ⟨inner, us₁, _, hinner, h⟩ := h.of_behind.steps
      obtain ⟨closing, hclosing, rfl⟩ := reads_map_iff.1 h
      refine Reads.behind ?_ l
      refine ((ih _ (by omega)).type _ rfl _ _ hinner (.of_expectKind hclosing (by decide))).andThen
        fun _ => ?_
      exact (hclosing.expect_append r).map rfl
    · exact hleaf h
    · exact hleaf h
    · exact hleaf h
    · exact hleaf h
    · exact ((ih _ (by omega)).named _ _ rfl _ _ h.of_behind hsquare).behind l
    · exact absurd h (not_reads_fail _)

theorem readNamed_steady (hr : Adjoins r) (name : String)
    (ih : SteadyBelow r (8 * ts.length + 3)) : Steady (Unsuffixed r) r (readNamed name) ts := by
  rintro t vs h hsquare
  rw [readNamed] at h
  rw [readNamed]
  refine h.onNext_append (fun _ => hr.not_isTight rfl) (fun _ us _ _ _ _ h => ?_) fun _ h => ?_
  · obtain ⟨constant, hconstant, rfl⟩ := reads_map_iff.1 h
    exact (constantName_append hr hconstant).map rfl
  refine h.onNext_append (fun _ => hr.not_isTight rfl) (fun _ us _ _ _ _ h => ?_) fun _ h => ?_
  · obtain ⟨args, us₁, _, hargs, h⟩ := h.steps
    split_ifs at h with hempty
    · exact absurd h (not_reads_fail _)
    · obtain ⟨rfl, rfl⟩ := reads_done_iff.1 h
      refine ((ih _ (by omega)).args _ rfl _ _ hargs trivial).andThen fun _ => ?_
      rw [if_neg hempty]
      exact reads_done _
  refine h.onNext_append (fun _ => hr.not_isTight_and rfl _) (fun _ us _ _ _ _ h => ?_)
    fun _ h => ?_
  · obtain ⟨items, hitems, rfl⟩ := reads_map_iff.1 h
    exact ((ih _ (by omega)).items _ rfl _ _ hitems trivial).map rfl
  refine h.onNext_append (fun _ => hr.not_isTight_and rfl _) (fun _ us _ _ _ _ h => ?_)
    fun _ h => ?_
  · obtain ⟨params, us₁, _, hparams, h⟩ := h.steps
    obtain ⟨closing, us₂, _, hclosing, h⟩ := h.steps
    obtain ⟨returns, hreturns, rfl⟩ := reads_map_iff.1 h
    refine ((ih _ (by omega)).params _ rfl _ _ hparams (next_of_expectKind hclosing)).andThen
      fun _ => ?_
    refine (hclosing.expect_append r).andThen fun _ => ?_
    exact ((ih _ (by omega)).returns _ rfl _ _ hreturns fun hvs => hsquare hvs rfl).map rfl
  · obtain ⟨rfl, rfl⟩ := reads_done_iff.1 h
    exact reads_done _

theorem readArgs_steady (hr : Adjoins r) (ih : SteadyBelow r (8 * ts.length + 4)) :
    Steady (fun _ _ => True) r readArgs ts := by
  rintro args vs h -
  rw [readArgs] at h
  rw [readArgs]
  refine h.onNext_append (fun _ => hr.not_isKind rfl) (fun _ us _ _ _ _ h => ?_) fun _ h => ?_
  · obtain ⟨rfl, rfl⟩ := reads_done_iff.1 h
    exact reads_done _
  refine h.onNext_append (fun _ => hr.not_isKind rfl) (fun _ us _ _ _ _ h => ?_) fun _ h => ?_
  · obtain ⟨more, hmore, rfl⟩ := reads_map_iff.1 h
    exact ((ih _ (by omega)).moreArgs _ rfl _ _ hmore trivial).map rfl
  split_ifs at h with hvariance
  · rw [if_pos (isVariance_append_of hvariance r)]
    obtain ⟨word, us, _, rfl, -, h⟩ | ⟨-, h⟩ := h.branches
    · obtain ⟨t, us₁, _, ht, h⟩ := h.steps
      obtain ⟨more, hmore, rfl⟩ := reads_map_iff.1 h
      refine reads_onNext rfl ?_
      refine ((ih _ (by omega)).type _ rfl _ _ ht (settled_of_readMoreArgs hmore)).andThen
        fun _ => ?_
      exact ((ih _ (by omega)).moreArgs _ rfl _ _ hmore trivial).map rfl
    · exact absurd h (not_reads_fail _)
  · obtain ⟨t, us, _, ht, h⟩ := h.steps
    obtain ⟨more, hmore, rfl⟩ := reads_map_iff.1 h
    have hword : ∀ l, ts = [l] → l.kind ≠ .identifier := by
      -- a single word is all of the argument, and no list ends there
      rintro l rfl
      obtain ⟨m, ms, rfl, hm⟩ := head_of_readMoreArgs hmore
      obtain ⟨rfl, -⟩ : m = l ∧ ms = [] := by
        have hsuffix := ht.suffix
        simpa [List.suffix_cons_iff] using hsuffix
      rcases hm with hm | hm <;> rw [hm] <;> decide
    rw [not_isVariance_append hr (by simpa using hvariance) hword, if_neg Bool.false_ne_true]
    refine ((ih _ (by omega)).type _ rfl _ _ ht (settled_of_readMoreArgs hmore)).andThen fun _ => ?_
    exact ((ih _ (by omega)).moreArgs _ rfl _ _ hmore trivial).map rfl

theorem readMoreArgs_steady (hr : Adjoins r) (ih : SteadyBelow r (8 * ts.length)) :
    Steady (fun _ _ => True) r readMoreArgs ts := by
  rintro args vs h -
  rw [readMoreArgs] at h
  rw [readMoreArgs]
  refine h.onNext_append (fun _ => hr.not_isKind rfl) (fun _ us _ _ _ _ h => ?_) fun _ h => ?_
  · exact (ih _ (by omega)).args _ rfl _ _ h trivial
  · obtain ⟨closing, hclosing, rfl⟩ := reads_map_iff.1 h
    exact (hclosing.expect_append r).map rfl

theorem readItems_steady (hr : Adjoins r) (ih : SteadyBelow r (8 * ts.length + 4)) :
    Steady (fun _ _ => True) r readItems ts := by
  rintro found vs h -
  rw [readItems] at h
  rw [readItems]
  refine h.onNext_append (fun _ => hr.not_isKind rfl) (fun _ us _ _ _ _ h => ?_) fun _ h => ?_
  · obtain ⟨rfl, rfl⟩ := reads_done_iff.1 h
    exact reads_done _
  refine h.onNext_append (fun _ => hr.not_isKind rfl) (fun _ us _ _ _ _ h => ?_) fun _ h => ?_
  · obtain ⟨rests, us₁, _, hrests, h⟩ := h.steps
    obtain ⟨comma, us₂, _, hcomma, h⟩ := h.steps
    obtain ⟨closing, hclosing, rfl⟩ := reads_map_iff.1 h
    refine Reads.andThen (?_ : Reads _ rests (us₁ ++ r)) fun _ => ?_
    · refine hrests.onNext_append (fun _ => hr.not_isTight rfl) (fun _ ws _ _ _ _ h => ?_)
        fun _ h => ?_
      · obtain ⟨args, ws₁, _, hargs, h⟩ := h.steps
        split_ifs at h with hempty
        · exact absurd h (not_reads_fail _)
        · obtain ⟨rfl, rfl⟩ := reads_done_iff.1 h
          refine ((ih _ (by omega)).args _ rfl _ _ hargs trivial).andThen fun _ => ?_
          rw [if_neg hempty]
          exact reads_done _
      · obtain ⟨rfl, rfl⟩ := reads_done_iff.1 h
        exact reads_done _
    refine (hcomma.skip_append (hr.not_isKind rfl)).andThen fun _ => ?_
    exact (hclosing.expect_append r).map rfl
  · obtain ⟨key, us, _, hkey, h⟩ := h.steps
    obtain ⟨value, us₁, _, hvalue, h⟩ := h.steps
    obtain ⟨more, hmore, rfl⟩ := reads_map_iff.1 h
    have hts : ts ≠ [] := fun hnil => ne_nil_of_readType hvalue (hkey.eq_nil hnil)
    refine (shapeKey_append hr hts hkey).andThen fun _ => ?_
    refine ((ih _ (by omega)).type _ rfl _ _ hvalue (settled_of_readMoreItems hmore)).andThen
      fun _ => ?_
    exact ((ih _ (by omega)).moreItems _ rfl _ _ hmore trivial).map rfl

theorem readMoreItems_steady (hr : Adjoins r) (ih : SteadyBelow r (8 * ts.length)) :
    Steady (fun _ _ => True) r readMoreItems ts := by
  rintro found vs h -
  rw [readMoreItems] at h
  rw [readMoreItems]
  refine h.onNext_append (fun _ => hr.not_isKind rfl) (fun _ us _ _ _ _ h => ?_) fun _ h => ?_
  · exact (ih _ (by omega)).items _ rfl _ _ h trivial
  · obtain ⟨closing, hclosing, rfl⟩ := reads_map_iff.1 h
    exact (hclosing.expect_append r).map rfl

theorem readParams_steady (hr : Adjoins r) (ih : SteadyBelow r (8 * ts.length + 4)) :
    Steady (fun _ vs => vs.head?.any (isKind .parenClose) = true) r readParams ts := by
  rintro params vs h hclosing
  have hvs : vs ≠ [] := by
    rintro rfl
    cases hclosing
  have hts : ts ≠ [] := fun hnil => hvs (h.eq_nil hnil)
  rw [readParams] at h
  rw [readParams]
  split_ifs at h with hclose
  · obtain ⟨rfl, rfl⟩ := reads_done_iff.1 h
    rw [if_pos (next_append hclose r)]
    exact reads_done _
  rw [not_next_append_of (by simpa using hclose) fun hnil => absurd hnil hts,
    if_neg Bool.false_ne_true]
  obtain ⟨type, us₁, _, htype, h⟩ := h.steps
  obtain ⟨byRef, us₂, _, hbyRef, h⟩ := h.steps
  obtain ⟨variadic, us₃, _, hvariadic, h⟩ := h.steps
  obtain ⟨name, us₄, _, hname, h⟩ := h.steps
  obtain ⟨isOptional, us₅, _, hoptional, h⟩ := h.steps
  have hsettled : Settled r us₅ ∧ us₅ ≠ [] := by
    obtain ⟨comma, ms, -, rfl, hcomma, -⟩ | ⟨-, h⟩ := h.branches
    · exact ⟨.of_next .comma hcomma (by decide), List.cons_ne_nil _ _⟩
    · obtain ⟨-, rfl⟩ := reads_done_iff.1 h
      exact ⟨.of_next _ hclosing (by decide), hvs⟩
  refine ((ih _ (by omega)).type _ rfl _ _ htype
    (settled_of_paramTail hbyRef hvariadic hname hoptional hsettled)).andThen fun _ => ?_
  refine (hbyRef.skip_append (hr.not_isKind rfl)).andThen fun _ => ?_
  refine (hvariadic.skip_append (hr.not_isKind rfl)).andThen fun _ => ?_
  refine (takeVariable_append hr hname).andThen fun _ => ?_
  refine (hoptional.skip_append (hr.not_isKind rfl)).andThen fun _ => ?_
  refine h.onNext_append (fun _ => hr.not_isKind rfl) (fun _ ms _ _ _ _ h => ?_) fun _ h => ?_
  · obtain ⟨more, hmore, rfl⟩ := reads_map_iff.1 h
    exact ((ih _ (by omega)).params _ rfl _ _ hmore hclosing).map rfl
  · obtain ⟨rfl, rfl⟩ := reads_done_iff.1 h
    exact reads_done _

theorem readReturns_steady (hr : Adjoins r) (ih : SteadyBelow r (8 * ts.length)) :
    Steady (fun _ vs => vs = [] → r.head?.any (isTight .squareOpen) = false) r
      readReturns ts := by
  rintro t vs h hsquare
  rw [readReturns] at h
  rw [readReturns]
  refine h.onNext_append (fun _ => hr.not_isKind rfl) (fun _ us _ _ _ _ h => ?_) fun _ h => ?_
  · refine h.onNext_append (fun _ => hr.not_isKind rfl) (fun _ us₁ _ _ _ _ h => ?_) fun _ h => ?_
    · obtain ⟨inner, hinner, rfl⟩ := reads_map_iff.1 h
      exact ((ih _ (by omega)).operand rfl hinner hsquare).map rfl
    · exact (ih _ (by omega)).operand rfl h hsquare
  · obtain ⟨rfl, rfl⟩ := reads_done_iff.1 h
    exact reads_done _

/-- **Reading does not depend on further lexemes** beyond the conditions of each reader. -/
theorem steadyAt (hr : Adjoins r) (n : Nat) : SteadyAt r n := by
  induction n using Nat.strong_induction_on with
  | _ n ih => exact {
      type := fun _ hn => readType_steady (hn ▸ ih)
      joined := fun first _ hn => readJoined_steady first (hn ▸ ih)
      union := fun _ hn => readUnion_steady (hn ▸ ih)
      intersection := fun _ hn => readIntersection_steady hr (hn ▸ ih)
      conditional := fun subject _ hn => readConditional_steady hr subject (hn ▸ ih)
      suffixed := fun _ hn => readOperand_suffixed (hn ▸ ih)
      suffixes := fun type _ hn => readSuffixes_steady hr type (hn ▸ ih)
      atom := fun _ hn => readAtom_steady (hn ▸ ih)
      named := fun name _ hn => readNamed_steady hr name (hn ▸ ih)
      args := fun _ hn => readArgs_steady hr (hn ▸ ih)
      moreArgs := fun _ hn => readMoreArgs_steady hr (hn ▸ ih)
      items := fun _ hn => readItems_steady hr (hn ▸ ih)
      moreItems := fun _ hn => readMoreItems_steady hr (hn ▸ ih)
      params := fun _ hn => readParams_steady hr (hn ▸ ih)
      returns := fun _ hn => readReturns_steady hr (hn ▸ ih) }

/-- **A type is read again** in front of further lexemes, if what it left was settled. -/
theorem readType_append (hr : Adjoins r) {t : TypeExpr} {vs : List Lexeme}
    (h : (readType ts).Reads t vs) (hs : Settled r vs) : (readType (ts ++ r)).Reads t (vs ++ r) :=
  (steadyAt hr _).type ts rfl t vs h hs

/-- **An operand is read again** in front of further lexemes, and goes on with the suffixes among
them; those behind a callable belong to what it returns. -/
theorem readOperand_append (hr : Adjoins r) {t u : TypeExpr} {vs ws : List Lexeme}
    (h : (readOperand ts).Reads t vs) (hsquare : Unsuffixed r t vs)
    (hmore : (readSuffixes t (vs ++ r)).Reads u ws) : (readOperand (ts ++ r)).Reads u ws :=
  (steadyAt hr _).suffixed ts rfl t vs h u ws hsquare hmore

/-- **The parameters of a callable** are read again in front of further lexemes. -/
theorem readParams_append (hr : Adjoins r) {params : List (CallableParam TypeExpr)}
    {vs : List Lexeme} (h : (readParams ts).Reads params vs)
    (hvs : vs.head?.any (isKind .parenClose) = true) :
    (readParams (ts ++ r)).Reads params (vs ++ r) :=
  (steadyAt hr _).params ts rfl params vs h hvs

end Steps

end PhpHandbook.DocBlock
