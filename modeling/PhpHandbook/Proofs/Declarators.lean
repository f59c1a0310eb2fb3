import PhpHandbook.Proofs.DocGaps
import PhpHandbook.Proofs.SingleClass

/-!
# Lists of declared names

One statement may declare several constants, and a method takes any number of parameters.  Each
value in such a list is an expression that nobody reads: it is passed over up to the separator
outside its brackets, and cut out of the source text from its first token to its last.  So each
declared name keeps its value, however many brackets and separators stand in it.

## Main definitions

* `Enclosed`: an expression that is balanced and holds separators only within brackets.
* `Declarator`: a declared name with the tokens of its value.
* `ConstantItems`, `ConstantStatement`: the tokens of a statement that declares constants.
* `ParameterItems`, `ParameterList`: the tokens of parameters in parentheses.

## Main statements

* `reads_readExpression`: the text of an expression.
* `ConstantItems.reads`, `ParameterItems.reads`: what is read of a list.
* `declarators_keep_values`: all names are declared, in order, with their values.
-/

namespace PhpHandbook.Declaration

open Source (Keyword Span TokenKind)

/-! ### Expressions -/

/-- Whether a token opens a bracket. -/
def opensAny (k : TokenKind) : Bool :=
  k == .mark .parenOpen || k == .mark .bracketOpen || k == .mark .braceOpen ||
    k == .mark .attributeOpen

/-- Whether a token closes a bracket. -/
def closesAny (k : TokenKind) : Bool :=
  k == .mark .parenClose || k == .mark .bracketClose || k == .mark .braceClose

theorem not_opensAny_of_closesAny {k : TokenKind} (h : closesAny k = true) :
    ¬opensAny k = true := by
  simp only [closesAny, Bool.or_eq_true, beq_iff_eq] at h
  obtain (rfl | rfl) | rfl := h <;> decide

/-- **An expression in front of a separator**: brackets of all kinds counted together, each one has
its partner, and separators stand only where some bracket is open. -/
structure Enclosed (stops : Item → Bool) (value : List Item) : Prop where
  balanced : Balanced opensAny closesAny (kinds value)
  inside : ∀ us t vs, value = us ++ t :: vs → stops t = true →
    ¬Balanced opensAny closesAny (kinds us)

instance (stops : Item → Bool) (value : List Item) : Decidable (Enclosed stops value) :=
  decidable_of_iff (Balanced opensAny closesAny (kinds value) ∧ ∀ n : Fin value.length,
      stops value[n] = true → ¬Balanced opensAny closesAny (kinds (value.take n))) <| by
    refine ⟨fun ⟨hbalanced, hinside⟩ => ⟨hbalanced, fun us t vs hvalue ht => ?_⟩,
      fun h => ⟨h.balanced, fun n hn => ?_⟩⟩
    · subst hvalue
      have hfront := hinside ⟨us.length, by simp⟩
      simp only [Fin.getElem_fin, List.getElem_append_right (Nat.le_refl us.length), Nat.sub_self,
        List.getElem_cons_zero, List.take_left] at hfront
      exact hfront ht
    · refine h.inside _ value[n] (value.drop (n + 1)) ?_ hn
      rw [Fin.getElem_fin, List.getElem_cons_drop, List.take_append_drop]

/-- The source text from the first token of an expression to its last, without blanks around it. -/
def valueText (env : Env) (value : List Item) : String :=
  match value.head?, value.getLast? with
  | some first, some last =>
    Text.trim (Span.slice ⟨first.token.span.start, last.token.span.stop⟩ env.source)
  | _, _ => ""

section Expressions

variable {env : Env} {stops : Item → Bool} {value rest : List Item}

/-- **Passing over an expression** stops in front of the first separator outside its brackets. -/
theorem reads_skipExpression {depth : Nat} (stop : Nat)
    (hcount : countBrackets opensAny closesAny depth (kinds value) = some 0)
    (hinside : ∀ us t vs, value = us ++ t :: vs → stops t = true →
      countBrackets opensAny closesAny depth (kinds us) ≠ some 0)
    (hrest : next stops rest = true) :
    (skipExpression stops depth stop (value ++ rest)).Reads
      ((value.getLast?.map (·.token.span.stop)).getD stop) rest := by
  induction value generalizing depth stop with
  | nil =>
    obtain rfl : depth = 0 := Option.some.inj hcount
    cases rest with
    | nil => cases hrest
    | cons t us =>
      have ht : stops t = true := by simpa [next] using hrest
      rw [List.nil_append, skipExpression, if_pos ⟨rfl, .inl ht⟩]
      exact Reading.reads_done _
  | cons t value ih =>
    have hlast : ((t :: value).getLast?.map (·.token.span.stop)).getD stop
        = (value.getLast?.map (·.token.span.stop)).getD t.token.span.stop := by
      rw [List.getLast?_cons]
      cases value.getLast? <;> rfl
    have hfront : ¬(depth = 0 ∧ (stops t = true ∨ closesBracket t = true)) := by
      rintro ⟨rfl, ht | ht⟩
      · exact hinside [] t value rfl ht rfl
      · rw [kinds, List.map_cons,
          countBrackets_zero_of_close (not_opensAny_of_closesAny ht) ht] at hcount
        cases hcount
    -- the depth behind the token is the number of brackets that are open there
    have hstep (ks : List TokenKind) : countBrackets opensAny closesAny depth (t.kind :: ks)
        = countBrackets opensAny closesAny
            (if opensBracket t then depth + 1 else if closesBracket t then depth - 1
              else depth) ks := by
      by_cases hopen : opensBracket t = true
      · rw [countBrackets_of_open depth hopen, if_pos hopen]
      by_cases hclose : closesBracket t = true
      · obtain ⟨n, rfl⟩ : ∃ n, depth = n + 1 :=
          Nat.exists_eq_succ_of_ne_zero fun h => hfront ⟨h, .inr hclose⟩
        rw [countBrackets_succ_of_close n hopen hclose, if_neg hopen, if_pos hclose,
          Nat.add_sub_cancel]
      · rw [countBrackets_of_other depth hopen hclose, if_neg hopen, if_neg hclose]
    rw [List.cons_append, skipExpression, if_neg hfront, hlast]
    refine (ih _ ?_ fun us u vs hvalue hu => ?_).behind t
    · rwa [← hstep]
    · rw [← hstep]
      exact hinside (t :: us) u vs (by rw [hvalue]; rfl) hu

/-- **The text of an expression** is what stands between its first token and its last. -/
theorem reads_readExpression (h : Enclosed stops value) (hrest : next stops rest = true) :
    (readExpression env stops (value ++ rest)).Reads (valueText env value) rest := by
  refine (reads_skipExpression _ h.balanced h.inside hrest).map ?_
  cases value with
  | nil =>
    have hempty :
        Span.slice ⟨(env.current rest).span.start, (env.current rest).span.start⟩
          env.source = "" := by
      rw [Span.slice, Span.chars, if_pos (Nat.le_refl _), Nat.sub_self]
      cases Source.dropBytes? (env.current rest).span.start env.source with
      | none => rfl
      | some cs => simp [Source.takeBytes?]
    exact congrArg Text.trim hempty
  | cons t value =>
    rw [valueText, List.head?_cons, List.getLast?_cons]
    rfl

end Expressions

/-! ### What stands in front of a declared name -/

section Fronts

variable {env : Env} {ts us rest : List Item}

/-- **Passing over the rest of an attribute group** stops behind its closing bracket. -/
theorem reads_skipAttribute (opening : Span) {n : Nat} {body : List Item} {closing : Item}
    (hbody : countBrackets opensSquare closesSquare n (kinds body) = some 0)
    (hclosing : isMark .bracketClose closing) :
    (skipAttribute opening n (body ++ closing :: us)).Reads () us := by
  induction body generalizing n with
  | nil =>
    obtain rfl : n = 0 := Option.some.inj hbody
    rw [List.nil_append,
      skipAttribute_zero_of_close opening (not_opensSquare_of_close hclosing) hclosing]
    exact (Reading.reads_done ()).behind closing
  | cons t body ih =>
    rw [kinds, List.map_cons] at hbody
    rw [List.cons_append]
    by_cases hopen : opensSquare t.kind = true
    · rw [countBrackets_of_open n hopen] at hbody
      rw [skipAttribute_of_open opening n hopen]
      exact (ih hbody).behind t
    by_cases hclose : closesSquare t.kind = true
    · cases n with
      | zero =>
        rw [countBrackets_zero_of_close hopen hclose] at hbody
        cases hbody
      | succ n =>
        rw [countBrackets_succ_of_close n hopen hclose] at hbody
        rw [skipAttribute_succ_of_close opening n hopen hclose]
        exact (ih hbody).behind t
    · rw [countBrackets_of_other n hopen hclose] at hbody
      rw [skipAttribute_of_other opening n hopen hclose]
      exact (ih hbody).behind t

theorem AttributesEnd.reads (h : AttributesEnd ts us) : (skipAttributes ts).Reads () us := by
  induction h with
  | stop hstop => exact reads_skipAttributes hstop
  | group hopen hbody hclose _ ih =>
    rw [skipAttributes]
    exact Reading.reads_onNext hopen ((reads_skipAttribute _ hbody hclose).andThen fun _ => ih)

theorem reads_readSet_no (h : startsSet ts = false) : (readSet env ts).Reads false ts := by
  rw [readSet, if_neg (by simp [h])]
  exact Reading.reads_done false

theorem reads_readSet {opening inner closing : Item}
    (h : startsSet (opening :: inner :: closing :: us) = true)
    (hclosing : isMark .parenClose closing) :
    (readSet env (opening :: inner :: closing :: us)).Reads true us := by
  rw [readSet, if_pos h]
  refine (Reading.reads_skip rfl _).andThen fun _ => (Reading.reads_skip rfl _).andThen fun _ => ?_
  exact ((Reading.reads_expect hclosing _ us).map rfl).map rfl

theorem ModifiersEnd.reads (h : ModifiersEnd modifiesMember isVisibility ts us) (m : Modifiers) :
    ∃ m', (readModifiers env m ts).Reads m' us := by
  induction h generalizing m with
  | stop hstop => exact ⟨m, reads_readModifiers hstop⟩
  | @word word us rest hword hset _ ih =>
    have hvisible : ∀ v, visibility? word.kind = some v → startsSet us = false :=
      fun v hv => hset (by rw [isVisibility, hv]; rfl)
    cases hv : visibility? word.kind with
    | none =>
      obtain ⟨m', hm'⟩ := ih (m.mark word.kind)
      refine ⟨m', ?_⟩
      rw [readModifiers]
      refine Reading.reads_onNext hword ?_
      rw [hv]
      exact hm'
    | some v =>
      obtain ⟨m', hm'⟩ := ih { m with visibility := some v }
      refine ⟨m', ?_⟩
      rw [readModifiers]
      refine Reading.reads_onNext hword ?_
      rw [hv]
      exact (reads_readSet_no (hvisible v hv)).andThen fun _ => hm'
  | @setter word opening inner closing us rest hword htakes hset hclosing _ ih =>
    obtain ⟨v, hv⟩ := Option.isSome_iff_exists.1 htakes
    obtain ⟨m', hm'⟩ := ih { m with setVisibility := some v }
    refine ⟨m', ?_⟩
    rw [readModifiers]
    refine Reading.reads_onNext hword ?_
    rw [hv]
    exact (reads_readSet hset hclosing).andThen fun _ => hm'

/-- **Behind an optional type**: nothing is passed over, or one type. -/
def TypeEnds (env : Env) (ts us : List Item) : Prop :=
  us = ts ∨ ∃ t, (readHint env ts).Reads t us

/-- Whether an item begins a type. -/
def beginsHint (i : Item) : Bool :=
  isMark .question i || isMark .parenOpen i || isTypeName i

theorem isTypeName_of_readSingleHint {t : TypeHint} (h : (readSingleHint env ts).Reads t us) :
    ∃ i, ts = i :: us ∧ isTypeName i = true := by
  obtain ⟨i, hi, -⟩ := Reading.reads_map_iff.1 h
  obtain ⟨j, vs, -, rfl, hj, hi⟩ | ⟨-, hi⟩ := hi.branches
  · obtain ⟨-, rfl⟩ := Reading.reads_done_iff.1 hi
    exact ⟨j, rfl, hj⟩
  · exact absurd hi (Reading.not_reads_fail _)

/-- Types begin with a question mark, a parenthesis or a name. -/
theorem beginsHint_of_reads {t : TypeHint} (h : (readHint env ts).Reads t us) :
    next beginsHint ts = true := by
  obtain ⟨i, vs, -, rfl, hi, -⟩ | ⟨-, h⟩ := h.branches
  · simp [next, beginsHint, hi]
  obtain ⟨first, vs, -, h, -⟩ := h.steps
  obtain ⟨i, ws, -, rfl, hi, -⟩ | ⟨-, h⟩ := h.branches
  · simp [next, beginsHint, hi]
  obtain ⟨single, ws, -, h, -⟩ := h.steps
  obtain ⟨i, rfl, hi⟩ := isTypeName_of_readSingleHint h
  simp [next, beginsHint, hi]

/-- A name that an `=` follows is the whole type. -/
theorem rest_of_readHint_equals {i equals : Item} {t : TypeHint}
    (hquestion : isMark .question i = false) (hparen : isMark .parenOpen i = false)
    (hequals : isMark .equals equals = true) (h : (readHint env (i :: equals :: rest)).Reads t us) :
    us = equals :: rest := by
  have hkind : equals.kind = .mark .equals := by simpa [isMark] using hequals
  obtain ⟨j, vs, -, hts, hj, -⟩ | ⟨-, h⟩ := h.branches
  · obtain ⟨rfl, -⟩ := List.cons.inj hts
    rw [hquestion] at hj
    cases hj
  obtain ⟨first, vs, -, h, hmore⟩ := h.steps
  obtain ⟨j, ws, -, hts, hj, -⟩ | ⟨-, h⟩ := h.branches
  · obtain ⟨rfl, -⟩ := List.cons.inj hts
    rw [hparen] at hj
    cases hj
  obtain ⟨single, ws, -, h, hjoined⟩ := h.steps
  obtain ⟨j, hts, -⟩ := isTypeName_of_readSingleHint h
  obtain ⟨-, rfl⟩ := List.cons.inj hts
  have hjoins : (readMoreJoined env (equals :: rest)).Reads [] (equals :: rest) := by
    rw [readMoreJoined, if_neg (by simp [joinsHints, next, isMark, hkind])]
    exact Reading.reads_done []
  have hunites : (readMoreUnited env (equals :: rest)).Reads [] (equals :: rest) := by
    rw [readMoreUnited]
    exact Reading.reads_onNext_no (by simp [isMark, hkind]) (Reading.reads_done [])
  obtain ⟨joined, hjoined, -⟩ := Reading.reads_map_iff.1 hjoined
  obtain ⟨-, rfl⟩ := hjoins.unique hjoined
  obtain ⟨united, hunited, -⟩ := Reading.reads_map_iff.1 hmore
  exact (hunited.unique hunites).2

/-- **Behind a mark** that may be left out. -/
inductive MarkEnds (mark : Source.Mark) : List Item → List Item → Prop
  | absent {ts : List Item} (h : next (isMark mark) ts = false) : MarkEnds mark ts ts
  | present {i : Item} {ts : List Item} (h : isMark mark i = true) : MarkEnds mark (i :: ts) ts

theorem MarkEnds.reads {mark : Source.Mark} (h : MarkEnds mark ts us) :
    ∃ found, (skipMark mark ts).Reads found us := by
  cases h with
  | absent h => exact ⟨false, Reading.reads_skip_no h⟩
  | present h => exact ⟨true, Reading.reads_skip h us⟩

/-- **Behind a block** that may be left out. -/
inductive BlockEnds : List Item → List Item → Prop
  | absent {ts : List Item} (h : next (isMark .braceOpen) ts = false) : BlockEnds ts ts
  | present {opening closing : Item} {body ts : List Item}
    (hopen : isMark .braceOpen opening = true)
    (hbody : Balanced opensBlock closesBlock (kinds body))
    (hclose : isMark .braceClose closing = true) :
    BlockEnds (opening :: (body ++ closing :: ts)) ts

theorem BlockEnds.reads (h : BlockEnds ts us) : ∃ found, (readHooks env ts).Reads found us := by
  cases h with
  | absent h => exact ⟨false, reads_readHooks h⟩
  | @present opening closing body ts hopen hbody hclose =>
    refine ⟨true, ?_⟩
    rw [readHooks, if_pos (by simpa [next] using hopen)]
    have hopening :
        (expectMark env .braceOpen (opening :: (body ++ closing :: us))).Reads opening.token
        (body ++ closing :: us) := (Reading.reads_expect hopen _ _).map rfl
    have hblock : (skipBlock env (opening :: (body ++ closing :: us))).Reads _ us :=
      hopening.andThen fun _ => skipToClose_of_count _ hbody hclose
    exact hblock.map rfl

end Fronts

/-! ### Constants -/

/-- A declared name **with the tokens of its value**, if it has one. -/
structure Declarator where
  name : Item
  value : Option (List Item)

/-- Whether an item can be the name of a member. -/
def namesMember (i : Item) : Bool :=
  i.kind == .name || i.kind.isKeyword

/-- **The tokens of constants** with commas between them: each is a name, an `=` and an
expression. -/
inductive ConstantItems : List Item → List Declarator → List Item → Prop
  | last {name equals : Item} {value rest : List Item} (hname : namesMember name = true)
    (hequals : isMark .equals equals = true) (hvalue : Enclosed endsConstant value)
    (hrest : next (isMark .semicolon) rest = true) :
    ConstantItems (name :: equals :: (value ++ rest)) [⟨name, some value⟩] rest
  | more {name equals comma : Item} {value us rest : List Item} {ds : List Declarator}
    (hname : namesMember name = true) (hequals : isMark .equals equals = true)
    (hvalue : Enclosed endsConstant value) (hcomma : isMark .comma comma = true)
    (hmore : ConstantItems us ds rest) :
    ConstantItems (name :: equals :: (value ++ comma :: us)) (⟨name, some value⟩ :: ds) rest

/-- **The tokens of a statement** that declares constants: attribute groups, modifiers, `const`, a
type or none, the constants and a semicolon. -/
inductive ConstantStatement (env : Env) : List Item → List Declarator → List Item → Prop
  | intro {ts us vs ws rest : List Item} {word semicolon : Item} {ds : List Declarator}
    (hattributes : AttributesEnd ts us)
    (hmodifiers : ModifiersEnd modifiesMember isVisibility us (word :: vs))
    (hword : isKeyword .kwConst word = true) (htype : TypeEnds env vs ws)
    (hitems : ConstantItems ws ds (semicolon :: rest))
    (hsemicolon : isMark .semicolon semicolon = true) :
    ConstantStatement env ts ds rest

section Constants

variable {env : Env} {ts us rest : List Item} {ds : List Declarator}

theorem reads_readMemberName {name : Item} (h : namesMember name = true) (us : List Item) :
    (readMemberName env (name :: us)).Reads ⟨name.token.lexeme, name.token.span⟩ us :=
  (Reading.reads_expect h _ us).map rfl

/-- **All constants of a list** are read, with their values. -/
theorem ConstantItems.reads (h : ConstantItems ts ds us) (make : Ident → String → Constant) :
    (readConstantList env make ts).Reads (ds.map fun d =>
      make ⟨d.name.token.lexeme, d.name.token.span⟩ (valueText env (d.value.getD []))) us := by
  induction h with
  | @last name equals value rest hname hequals hvalue hrest =>
    rw [readConstantList]
    refine (reads_readMemberName hname _).andThen fun _ => Reading.reads_onNext hequals ?_
    have hstops : next endsConstant rest = true := by
      cases rest with
      | nil => cases hrest
      | cons i rest => simpa [next, endsConstant] using .inr (by simpa [next] using hrest)
    refine (reads_readExpression hvalue hstops).andThen fun _ => ?_
    exact Reading.reads_onNext_no (next_eq_false hrest (isMark_of_ne (by decide)))
      (Reading.reads_done _)
  | @more name equals comma value us rest ds hname hequals hvalue hcomma _ ih =>
    rw [readConstantList]
    refine (reads_readMemberName hname _).andThen fun _ => Reading.reads_onNext hequals ?_
    have hstops : next endsConstant (comma :: us) = true := by
      simp [next, endsConstant, hcomma]
    refine (reads_readExpression hvalue hstops).andThen fun _ => ?_
    exact Reading.reads_onNext hcomma (ih.map rfl)

theorem ConstantItems.front (h : ConstantItems ts ds us) :
    ∃ name equals more, ts = name :: equals :: more ∧ namesMember name = true ∧
      isMark .equals equals = true := by
  cases h with
  | last hname hequals => exact ⟨_, _, _, rfl, hname, hequals⟩
  | more hname hequals => exact ⟨_, _, _, rfl, hname, hequals⟩

theorem isMark_of_namesMember (mark : Source.Mark) {i : Item} (h : namesMember i = true) :
    isMark mark i = false := by
  by_contra hmark
  have hkind : i.kind = .mark mark := by simpa [isMark] using hmark
  simp [namesMember, hkind, TokenKind.isKeyword] at h

/-- The type of constants is told apart from their first name by the `=` behind that. -/
theorem reads_readHintIf_constant {vs : List Item} (htype : TypeEnds env vs ts)
    (hitems : ConstantItems ts ds us) :
    ∃ t, (readHintIf env (constantHasType vs) vs).Reads t ts := by
  obtain ⟨name, equals, more, rfl, hname, hequals⟩ := hitems.front
  obtain rfl | ⟨t, ht⟩ := htype
  · have hnone : constantHasType (name :: equals :: more) = false := by
      simp [constantHasType, isMark_of_namesMember _ hname, hequals]
    refine ⟨none, ?_⟩
    rw [readHintIf, hnone]
    exact Reading.reads_done none
  · have hsome : constantHasType vs = true := by
      by_contra hnot
      cases vs with
      | nil => exact absurd (beginsHint_of_reads ht) Bool.false_ne_true
      | cons i vs =>
        cases vs with
        | nil => exact hnot (by simp [constantHasType])
        | cons j vs =>
          simp only [constantHasType, Bool.or_eq_true, Bool.not_eq_true', not_or, Bool.not_eq_true,
            Bool.not_eq_false] at hnot
          -- what is read would end in front of an `=`, not in front of the name
          have hrest := rest_of_readHint_equals hnot.1.1 hnot.1.2 hnot.2 ht
          have hfront := isMark_of_namesMember .equals hname
          rw [(List.cons.inj hrest).1, hnot.2] at hfront
          cases hfront
    exact ⟨some t, reads_hintIf hsome ht⟩

theorem ConstantItems.value (h : ConstantItems ts ds us) :
    ∀ d ∈ ds, some (valueText env (d.value.getD [])) = d.value.map (valueText env) := by
  induction h with
  | last => simp
  | more _ _ _ _ _ ih => exact List.forall_mem_cons.2 ⟨rfl, ih⟩

/-- What stands in front of `const` is a modifier. -/
theorem ModifiersEnd.front {p : Item → Bool} (h : ModifiersEnd modifiesMember isVisibility us ts)
    (hmodifier : ∀ i, modifiesMember i = true → p i = false) (hts : next p ts = false) :
    next p us = false := by
  cases h with
  | stop => exact hts
  | word hword => exact hmodifier _ hword
  | setter hword => exact hmodifier _ hword

theorem AttributesEnd.front {p : Item → Bool} (h : AttributesEnd us ts)
    (hmark : ∀ i, isMark .attributeOpen i = true → p i = false) (hts : next p ts = false) :
    next p us = false := by
  cases h with
  | stop => exact hts
  | group hopen => exact hmark _ hopen

/-- Constants are read from their keyword on. -/
theorem reads_readConstants {word semicolon : Item} {vs : List Item}
    (hword : isKeyword .kwConst word = true) (htype : TypeEnds env vs ts)
    (hitems : ConstantItems ts ds (semicolon :: rest))
    (hsemicolon : isMark .semicolon semicolon = true) (modifiers : Modifiers) (doc : Option Comment)
    (start : Span) :
    ∃ cs, (readConstants env modifiers doc start (word :: vs)).Reads cs rest ∧
      cs.map (fun c => (c.name.name, some c.value))
        = ds.map fun d => (d.name.token.lexeme, d.value.map (valueText env)) := by
  obtain ⟨type, hhint⟩ := reads_readHintIf_constant htype hitems
  refine ⟨_, ((Reading.reads_expect hword _ vs).map rfl).andThen fun _ => hhint.andThen fun _ =>
    (hitems.reads _).andThen fun _ =>
    ((Reading.reads_expect hsemicolon _ rest).map rfl).map rfl, ?_⟩
  rw [List.map_map]
  exact List.map_congr_left fun d hd => congrArg (d.name.token.lexeme, ·) (hitems.value d hd)

/-- A statement begins with a word or with attributes. -/
theorem ConstantStatement.front (h : ConstantStatement env ts ds rest) {mark : Source.Mark}
    (hmark : mark ≠ .attributeOpen) : next (isMark mark) ts = false := by
  obtain ⟨hattributes, hmodifiers, hword, -, -, -⟩ := h
  rename_i word _
  have hkind : word.kind = .keyword .kwConst := by simpa [isKeyword] using hword
  refine hattributes.front (isMark_of_ne hmark) (hmodifiers.front (fun i hi => ?_) ?_)
  · by_contra hmark
    have hkind : i.kind = .mark mark := by simpa [isMark] using hmark
    simp [modifiesMember, hkind, TokenKind.isModifier] at hi
  · simp [next, isMark, hkind]

theorem ConstantStatement.not_atBodyEnd (h : ConstantStatement env ts ds rest) :
    ¬atBodyEnd ts = true := by
  have hbrace : next (isMark .braceClose) ts = false := h.front (by decide)
  obtain ⟨hattributes, hmodifiers, -, -, -, -⟩ := h
  have hlength := (hmodifiers.suffix.trans hattributes.suffix).length_le
  cases ts with
  | nil => simp at hlength
  | cons t us => simp [atBodyEnd, hbrace]

/-- **A statement that declares constants** is read as one member. -/
theorem ConstantStatement.reads (h : ConstantStatement env ts ds rest) :
    ∃ cs, (readMember env ts).Reads (.constants cs) rest ∧
      cs.map (fun c => (c.name.name, some c.value))
        = ds.map fun d => (d.name.token.lexeme, d.value.map (valueText env)) := by
  have hsemicolons : next (isMark .semicolon) ts = false := h.front (by decide)
  obtain ⟨hattributes, hmodifiers, hword, htype, hitems, hsemicolon⟩ := h
  rename_i us vs ws word semicolon
  have hkind : word.kind = .keyword .kwConst := by simpa [isKeyword] using hword
  have hother {k : Keyword} (hk : k ≠ .kwConst) (hplain : k.isModifier = false) :
      next (isKeyword k) us = false := by
    refine hmodifiers.front (fun i hi => ?_) (by simp [next, isKeyword, hkind, hk.symm])
    by_contra hword
    have hkind : i.kind = .keyword k := by simpa [isKeyword] using hword
    simp [modifiesMember, hkind, TokenKind.isModifier, hplain] at hi
  have huse : next (isKeyword .kwUse) ts = false := by
    refine hattributes.front (fun i hi => ?_) (hother (by decide) rfl)
    have hkind : i.kind = .mark .attributeOpen := by simpa [isMark] using hi
    simp [isKeyword, hkind]
  obtain ⟨m, hm⟩ := hmodifiers.reads {}
  obtain ⟨cs, hcs, hvalues⟩ := reads_readConstants hword htype hitems hsemicolon m
    (firstDoc (firstDoc (docComment? ts) us) (word :: vs)) (env.current ts).span
  refine ⟨cs, ?_, hvalues⟩
  rw [readMember_eq]
  refine Reading.reads_onNext_no hsemicolons ?_
  rw [if_neg (by simp [huse])]
  refine hattributes.reads.andThen fun _ => ?_
  rw [readAttributed, if_neg (by simp [hother (k := .kwCase) (by decide) rfl]), readModified_eq]
  refine hm.andThen fun _ => ?_
  rw [readDeclared, if_pos (by simpa [next] using hword)]
  exact hcs.map rfl

end Constants

/-! ### Parameters -/

/-- **The tokens of a default**: an `=` and an expression, or neither, and then the block of
accessors that a parameter may have. -/
inductive DefaultItems : List Item → Option (List Item) → List Item → Prop
  | absent {ts rest : List Item} (hequals : next (isMark .equals) ts = false)
    (hblock : BlockEnds ts rest) :
    DefaultItems ts none rest
  | present {equals : Item} {value rest : List Item} (hequals : isMark .equals equals = true)
    (hvalue : Enclosed endsParam value) : DefaultItems (equals :: (value ++ rest)) (some value) rest

/-- **The tokens of a parameter**: attribute groups, modifiers, a type or none, `&` and `...` or
neither, the variable and its default. -/
inductive ParameterItem (env : Env) : List Item → Declarator → List Item → Prop
  | intro {ts us vs ws xs ys rest : List Item} {name : Item} {value : Option (List Item)}
    (hattributes : AttributesEnd ts us)
    (hmodifiers : ModifiersEnd modifiesMember isVisibility us vs) (htype : TypeEnds env vs ws)
    (hreference : MarkEnds .ampersand ws xs) (hvariadic : MarkEnds .ellipsis xs (name :: ys))
    (hname : isKind .variableName name = true)
    (hdefault : DefaultItems ys value rest) : ParameterItem env ts ⟨name, value⟩ rest

/-- **The tokens of parameters** up to the closing parenthesis, with commas between them; a comma
may follow the last one. -/
inductive ParameterItems (env : Env) : List Item → List Declarator → List Item → Prop
  | none {ts : List Item} (hclose : next (isMark .parenClose) ts = true) :
      ParameterItems env ts [] ts
  | last {ts us : List Item} {d : Declarator} (hitem : ParameterItem env ts d us)
    (hclose : next (isMark .parenClose) us = true) : ParameterItems env ts [d] us
  | more {ts us vs : List Item} {comma : Item} {d : Declarator} {ds : List Declarator}
    (hitem : ParameterItem env ts d (comma :: us)) (hcomma : isMark .comma comma = true)
    (hmore : ParameterItems env us ds vs) : ParameterItems env ts (d :: ds) vs

/-- **The tokens of parameters in parentheses.** -/
inductive ParameterList (env : Env) : List Item → List Declarator → List Item → Prop
  | intro {opening closing : Item} {ts rest : List Item} {ds : List Declarator}
    (hopening : isMark .parenOpen opening = true)
    (hitems : ParameterItems env ts ds (closing :: rest))
    (hclosing : isMark .parenClose closing = true) : ParameterList env (opening :: ts) ds rest

/-- The name of a variable, without its dollar sign. -/
def Item.variable (i : Item) : String :=
  String.ofList (i.token.lexeme.toList.dropWhile (· == '$'))

section Parameters

variable {env : Env} {ts us rest : List Item} {d : Declarator} {ds : List Declarator}

/-- What a parameter begins with. -/
theorem startsUntyped_of_marks {xs ys : List Item} {name : Item}
    (hreference : MarkEnds .ampersand ts xs) (hvariadic : MarkEnds .ellipsis xs (name :: ys))
    (hname : isKind .variableName name = true) :
    next startsUntyped ts = true := by
  cases hreference with
  | present hmark => simp [next, startsUntyped, hmark]
  | absent =>
    cases hvariadic with
    | present hmark => simp [next, startsUntyped, hmark]
    | absent => simp [next, startsUntyped, hname]

theorem beginsHint_of_startsUntyped (i : Item) (h : startsUntyped i = true) :
    beginsHint i = false := by
  simp only [startsUntyped, isKind, isMark, Bool.or_eq_true, beq_iff_eq] at h
  simp only [beginsHint, isTypeName, isMark, isKeyword]
  obtain (hkind | hkind) | hkind := h <;> rw [hkind] <;> rfl

/-- The type of a parameter is told apart from the parameter by what that begins with. -/
theorem reads_readHintIf_parameter {vs : List Item} (htype : TypeEnds env vs ts)
    (huntyped : next startsUntyped ts = true) :
    ∃ t, (readHintIf env (!next startsUntyped vs) vs).Reads t ts := by
  obtain rfl | ⟨t, ht⟩ := htype
  · refine ⟨none, ?_⟩
    rw [huntyped]
    exact Reading.reads_done none
  · refine ⟨some t, reads_hintIf ?_ ht⟩
    by_contra hnot
    have hbegins := next_eq_false (by simpa using hnot) beginsHint_of_startsUntyped
    rw [beginsHint_of_reads ht] at hbegins
    cases hbegins

/-- A default and a block are read as far as they go. -/
theorem DefaultItems.reads {value : Option (List Item)} (h : DefaultItems ts value us)
    (hus : next endsParam us = true) :
    ∃ vs, (readDefault env endsParam ts).Reads (value.map (valueText env)) vs ∧
      ∃ found, (readHooks env vs).Reads found us := by
  cases h with
  | absent hequals hblock => exact ⟨ts, reads_readDefault hequals, hblock.reads⟩
  | present hequals hvalue =>
    have hbrace : next (isMark .braceOpen) us = false := by
      refine next_eq_false hus fun i hi => ?_
      simp only [endsParam, isMark, Bool.or_eq_true, beq_iff_eq] at hi
      obtain hkind | hkind := hi <;> rw [isMark, hkind] <;> rfl
    exact ⟨us, Reading.reads_onNext hequals ((reads_readExpression hvalue hus).map rfl), false,
      reads_readHooks hbrace⟩

/-- **A parameter** is read with its default. -/
theorem ParameterItem.reads (h : ParameterItem env ts d rest) (hrest : next endsParam rest = true) :
    ∃ p, (readParam env ts).Reads p rest ∧ p.name.name = d.name.variable ∧
      p.fallback = d.value.map (valueText env) := by
  obtain ⟨hattributes, hmodifiers, htype, hreference, hvariadic, hname, hdefault⟩ := h
  obtain ⟨m, hm⟩ := hmodifiers.reads {}
  obtain ⟨t, ht⟩ :=
    reads_readHintIf_parameter htype (startsUntyped_of_marks hreference hvariadic hname)
  obtain ⟨byRef, hbyRef⟩ := hreference.reads
  obtain ⟨variadic, hmany⟩ := hvariadic.reads
  obtain ⟨vs, hvalue, hooks, hhooks⟩ := hdefault.reads hrest
  refine ⟨_, hattributes.reads.andThen fun _ => hm.andThen fun _ => ht.andThen fun _ =>
    hbyRef.andThen fun _ => hmany.andThen fun _ =>
    ((Reading.reads_expect hname _ _).map rfl).andThen fun _ => hvalue.andThen fun _ =>
      hhooks.map rfl,
    rfl, rfl⟩

/-- A parameter does not begin with a closing parenthesis. -/
theorem ParameterItem.front (h : ParameterItem env ts d rest) :
    next (isMark .parenClose) ts = false := by
  obtain ⟨hattributes, hmodifiers, htype, hreference, hvariadic, hname, -⟩ := h
  refine hattributes.front (isMark_of_ne (by decide)) (hmodifiers.front (fun i hi => ?_) ?_)
  · by_contra hmark
    have hkind : i.kind = .mark .parenClose := by simpa [isMark] using hmark
    simp [modifiesMember, hkind, TokenKind.isModifier] at hi
  obtain rfl | ⟨t, ht⟩ := htype
  · refine next_eq_false (startsUntyped_of_marks hreference hvariadic hname) fun i hi => ?_
    simp only [startsUntyped, isKind, isMark, Bool.or_eq_true, beq_iff_eq] at hi
    obtain (hkind | hkind) | hkind := hi <;> rw [isMark, hkind] <;> rfl
  · refine next_eq_false (beginsHint_of_reads ht) fun i hi => ?_
    by_contra hmark
    have hkind : i.kind = .mark .parenClose := by simpa [isMark] using hmark
    simp [beginsHint, isMark, isTypeName, isKeyword, hkind, TokenKind.isName] at hi

/-- **All parameters of a list** are read, with their defaults. -/
theorem ParameterItems.reads (h : ParameterItems env ts ds us) :
    ∃ ps, (readParamList env ts).Reads ps us ∧
      ps.map (fun p => (p.name.name, p.fallback))
        = ds.map fun d => (d.name.variable, d.value.map (valueText env)) := by
  induction h with
  | none hclose =>
    refine ⟨[], ?_, rfl⟩
    rw [readParamList, if_pos hclose]
    exact Reading.reads_done []
  | @last ts us d hitem hclose =>
    have hstops : next endsParam us = true := by
      cases us with
      | nil => cases hclose
      | cons i us => simpa [next, endsParam] using .inr (by simpa [next] using hclose)
    obtain ⟨p, hp, hname, hvalue⟩ := hitem.reads hstops
    refine ⟨[p], ?_, by rw [List.map_singleton, List.map_singleton, hname, hvalue]⟩
    rw [readParamList, if_neg (by simp [hitem.front])]
    exact hp.andThen fun _ =>
      Reading.reads_onNext_no (next_eq_false hclose (isMark_of_ne (by decide)))
        (Reading.reads_done [p])
  | @more ts us vs comma d ds hitem hcomma _ ih =>
    obtain ⟨p, hp, hname, hvalue⟩ := hitem.reads (by simp [next, endsParam, hcomma])
    obtain ⟨ps, hps, hvalues⟩ := ih
    refine ⟨p :: ps, ?_, by rw [List.map_cons, List.map_cons, hname, hvalue, hvalues]⟩
    rw [readParamList, if_neg (by simp [hitem.front])]
    exact hp.andThen fun _ => Reading.reads_onNext hcomma (hps.map rfl)

theorem ParameterList.reads (h : ParameterList env ts ds rest) :
    ∃ ps, (readParams env ts).Reads ps rest ∧
      ps.map (fun p => (p.name.name, p.fallback))
        = ds.map fun d => (d.name.variable, d.value.map (valueText env)) := by
  obtain ⟨hopening, hitems, hclosing⟩ := h
  obtain ⟨ps, hps, hvalues⟩ := hitems.reads
  exact ⟨ps, ((Reading.reads_expect hopening _ _).map rfl).andThen fun _ => hps.andThen fun _ =>
    ((Reading.reads_expect hclosing _ rest).map rfl).map rfl, hvalues⟩

end Parameters

/-! ### Bodies and parameters -/

/-- **Declared names keep their values.**  Behind a statement that declares constants, the body of a
class is read with these constants added, in the order in which they are declared, each with the
text of its expression; and parameters in parentheses are read in order, each with the text of its
default. -/
theorem declarators_keep_values (env : Env) :
    (∀ ts ds rest ms, ConstantStatement env ts ds rest →
      ∃ cs, cs.map (fun c => (c.name.name, some c.value))
            = ds.map (fun d => (d.name.token.lexeme, d.value.map (valueText env))) ∧
          ∀ read us, (readBody env ms ts).Reads read us
            ↔ (readBody env (ms.add (.constants cs)) rest).Reads read us) ∧
      ∀ ts ds rest, ParameterList env ts ds rest →
        ∃ ps, ps.map (fun p => (p.name.name, p.fallback))
            = ds.map (fun d => (d.name.variable, d.value.map (valueText env))) ∧
          (readParams env ts).Reads ps rest := by
  refine ⟨fun ts ds rest ms h => ?_, fun ts ds rest h => ?_⟩
  · obtain ⟨cs, ⟨houtcome, rfl⟩, hvalues⟩ := h.reads
    refine ⟨cs, hvalues, fun read us => ?_⟩
    rw [readBody_of_ok env ms h.not_atBodyEnd (Reading.eq_of_outcome houtcome)]
    exact Iff.rfl
  · obtain ⟨ps, hps, hvalues⟩ := h.reads
    exact ⟨ps, hvalues, hps⟩

/-! A class with two constants and a method with two parameters, where brackets and a string hold
commas and a semicolon. -/

/-- The text of a class. -/
def desk : List Char :=
  "<?php class P \x7b final const ?int A = [f(1, 2)], B = 'x;,'; ".toList
    ++ "function q($a = [1, 2], &...$b) \x7b\x7d \x7d".toList

/-- Its source text, with the end of the file. -/
def deskEnv : Env :=
  ⟨desk, default⟩

/-- Its tokens. -/
def deskTokens : List Source.Token :=
  [⟨.openTag, ⟨0, 6⟩, "<?php "⟩, ⟨.keyword .kwClass, ⟨6, 11⟩, "class"⟩,
    ⟨.name, ⟨12, 13⟩, "P"⟩,
    ⟨.mark .braceOpen, ⟨14, 15⟩, "\x7b"⟩, ⟨.keyword .kwFinal, ⟨16, 21⟩, "final"⟩,
    ⟨.keyword .kwConst, ⟨22, 27⟩, "const"⟩, ⟨.mark .question, ⟨28, 29⟩, "?"⟩,
    ⟨.name, ⟨29, 32⟩, "int"⟩, ⟨.name, ⟨33, 34⟩, "A"⟩,
    ⟨.mark .equals, ⟨35, 36⟩, "="⟩, ⟨.mark .bracketOpen, ⟨37, 38⟩, "["⟩,
    ⟨.name, ⟨38, 39⟩, "f"⟩, ⟨.mark .parenOpen, ⟨39, 40⟩, "("⟩,
    ⟨.number, ⟨40, 41⟩, "1"⟩, ⟨.mark .comma, ⟨41, 42⟩, ","⟩,
    ⟨.number, ⟨43, 44⟩, "2"⟩, ⟨.mark .parenClose, ⟨44, 45⟩, ")"⟩,
    ⟨.mark .bracketClose, ⟨45, 46⟩, "]"⟩, ⟨.mark .comma, ⟨46, 47⟩, ","⟩,
    ⟨.name, ⟨48, 49⟩, "B"⟩, ⟨.mark .equals, ⟨50, 51⟩, "="⟩,
    ⟨.quoted, ⟨52, 57⟩, "'x;,'"⟩, ⟨.mark .semicolon, ⟨57, 58⟩, ";"⟩,
    ⟨.keyword .kwFunction, ⟨59, 67⟩, "function"⟩, ⟨.name, ⟨68, 69⟩, "q"⟩,
    ⟨.mark .parenOpen, ⟨69, 70⟩, "("⟩, ⟨.variableName, ⟨70, 72⟩, "$a"⟩,
    ⟨.mark .equals, ⟨73, 74⟩, "="⟩, ⟨.mark .bracketOpen, ⟨75, 76⟩, "["⟩,
    ⟨.number, ⟨76, 77⟩, "1"⟩, ⟨.mark .comma, ⟨77, 78⟩, ","⟩,
    ⟨.number, ⟨79, 80⟩, "2"⟩, ⟨.mark .bracketClose, ⟨80, 81⟩, "]"⟩,
    ⟨.mark .comma, ⟨81, 82⟩, ","⟩, ⟨.mark .ampersand, ⟨83, 84⟩, "&"⟩,
    ⟨.mark .ellipsis, ⟨84, 87⟩, "..."⟩, ⟨.variableName, ⟨87, 89⟩, "$b"⟩,
    ⟨.mark .parenClose, ⟨89, 90⟩, ")"⟩, ⟨.mark .braceOpen, ⟨91, 92⟩, "\x7b"⟩,
    ⟨.mark .braceClose, ⟨92, 93⟩, "\x7d"⟩, ⟨.mark .braceClose, ⟨94, 95⟩, "\x7d"⟩,
    ⟨.eof, ⟨95, 95⟩, ""⟩]

/-- One of its tokens. -/
def deskItem (i : Nat) : Item :=
  ⟨[], deskTokens.getD i default⟩

/-- Some of its tokens. -/
def deskItems (i n : Nat) : List Item :=
  (List.range' i n).map deskItem

theorem constantStatement_desk : ConstantStatement deskEnv (deskItems 4 37)
    [⟨deskItem 8, some (deskItems 10 8)⟩, ⟨deskItem 19, some (deskItems 21 1)⟩]
    (deskItems 23 18) := by
  have htype : TypeEnds deskEnv (deskItems 6 35) (deskItems 8 33) := by
    have hquestion : isMark .question (deskItem 6) = true := by decide +kernel
    have hname : isTypeName (deskItem 7) = true := by decide +kernel
    exact .inr ⟨_,
      Reading.reads_onNext hquestion (((Reading.reads_expect hname _ _).map rfl).map rfl)⟩
  have hitems :
      ConstantItems (deskItem 8 :: deskItem 9 :: (deskItems 10 8 ++ deskItem 18 :: deskItem 19 ::
      deskItem 20 :: (deskItems 21 1 ++ deskItems 22 19)))
      [⟨deskItem 8, some (deskItems 10 8)⟩, ⟨deskItem 19, some (deskItems 21 1)⟩]
      (deskItems 22 19) :=
    .more (by decide +kernel) (by decide +kernel) (by decide +kernel) (by decide +kernel)
      (.last (by decide +kernel) (by decide +kernel) (by decide +kernel) (by decide +kernel))
  have hmodifiers :
      ModifiersEnd modifiesMember isVisibility (deskItems 4 37) (deskItem 5 :: deskItems 6 35) :=
    .word (by decide +kernel) (fun _ => by decide +kernel) (.stop (by decide +kernel))
  exact .intro (.stop (by decide +kernel)) hmodifiers (by decide +kernel) htype hitems
    (by decide +kernel)

theorem parameterList_desk : ParameterList deskEnv (deskItems 25 16)
    [⟨deskItem 26, some (deskItems 28 5)⟩, ⟨deskItem 36, none⟩] (deskItems 38 3) := by
  have hfirst :
      ParameterItem deskEnv (deskItem 26 :: deskItem 27 :: (deskItems 28 5 ++ deskItems 33 8))
      ⟨deskItem 26, some (deskItems 28 5)⟩ (deskItem 33 :: deskItems 34 7) :=
    .intro (.stop (by decide +kernel)) (.stop (by decide +kernel)) (.inl rfl)
      (.absent (by decide +kernel))
      (.absent (by decide +kernel)) (by decide +kernel)
        (.present (by decide +kernel) (by decide +kernel))
  have hsecond : ParameterItem deskEnv (deskItem 34 :: deskItem 35 :: deskItem 36 :: deskItems 37 4)
      ⟨deskItem 36, none⟩ (deskItem 37 :: deskItems 38 3) :=
    .intro (.stop (by decide +kernel)) (.stop (by decide +kernel)) (.inl rfl)
      (.present (by decide +kernel))
      (.present (by decide +kernel)) (by decide +kernel)
      (.absent (by decide +kernel) (.absent (by decide +kernel)))
  exact .intro (by decide +kernel)
    (.more hfirst (by decide +kernel) (.last hsecond (by decide +kernel)))
    (by decide +kernel)

theorem declarators_keep_values_desk :
    (Source.tokenize desk).tokens = deskTokens ∧
      (∃ cs, cs.map (fun c => (c.name.name, some c.value))
            = [("A", some "[f(1, 2)]"), ("B", some "'x;,'")] ∧
          ∀ read us, (readBody deskEnv {} (deskItems 4 37)).Reads read us ↔
            (readBody deskEnv (Members.add {} (.constants cs)) (deskItems 23 18)).Reads
              read us) ∧
      ∃ ps, ps.map (fun p => (p.name.name, p.fallback)) = [("a", some "[1, 2]"), ("b", none)] ∧
        (readParams deskEnv (deskItems 25 16)).Reads ps (deskItems 38 3) := by
  obtain ⟨hconstants, hparameters⟩ := declarators_keep_values deskEnv
  obtain ⟨cs, hcs, hbody⟩ := hconstants _ _ _ {} constantStatement_desk
  obtain ⟨ps, hps, hreads⟩ := hparameters _ _ _ parameterList_desk
  refine ⟨by decide +kernel, ⟨cs, hcs.trans ?_, hbody⟩, ps, hps.trans ?_, hreads⟩
  · decide +kernel
  · decide +kernel

end PhpHandbook.Declaration
