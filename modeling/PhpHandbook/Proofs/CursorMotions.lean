import PhpHandbook.DocBlock.TypeReader

/-!
# Motions of the type cursor

The readers of types take a list of lexemes and give back a suffix of it, and they are functions:
that they come to an end, and that nothing is put back in front, is part of their form.  Here the
same grammar is told with a cursor.  A motion starts at a position and comes to an outcome and to
another position, or does not come to an end; nothing in its form keeps the position between the
lexemes or from going back, and the attempt at a conditional remembers where it started and sets the
cursor back there by hand.

The recursion is told by its depth: at depth zero nothing comes to an end, and at any other depth a
motion may call those of the depth below.  That the readers are followed at a depth that the number
of lexemes bounds is what it means that the recursion ends.

## Main definitions

* `Motion`: moving a cursor from position to position.
* `Motion.attempt`: a motion that is undone if it fails.
* `motions`: the grammar as motions, up to a depth of the recursion.
* `Follows`: a motion that comes to the outcome of a reader, where the reader left off.

## Main statements

* `complete_all`: deep enough for the lexemes, every motion follows its reader.
-/

namespace PhpHandbook.DocBlock

/-! ### Motions -/

/-- **A motion** of the cursor: from a position it comes to an outcome and to another position, or
it does not come to an end. -/
def Motion (α : Type) : Type :=
  Nat → Option (Except TypeError α × Nat)

namespace Motion

variable {α β : Type} (ls : List Lexeme)

/-- Does not come to an end. -/
def stuck : Motion α :=
  fun _ => none

/-- Stays and succeeds. -/
def done (a : α) : Motion α :=
  fun p => some (.ok a, p)

/-- Stays and fails. -/
def fail (e : Expected) : Motion α :=
  fun p => some (.error (expected e (ls.drop p)), p)

/-- Goes on from where a success has come to, and stays where a failure has come to. -/
def andThen (m : Motion α) (next : α → Motion β) : Motion β :=
  fun p => (m p).bind fun (outcome, q) =>
    match outcome with
    | .ok a => next a q
    | .error e => some (.error e, q)

/-- Changes what a success gives. -/
def map (f : α → β) (m : Motion α) : Motion β :=
  m.andThen fun a => done (f a)

/-- Steps over the lexeme at the cursor if it satisfies `test`. -/
def onNext (test : Lexeme → Bool) (yes : Lexeme → Motion α) (no : Motion α) : Motion α :=
  fun p =>
    match ls[p]? with
    | some l => if test l then yes l (p + 1) else no p
    | none => no p

/-- Chooses by what stands ahead. -/
def choose (test : List Lexeme → Bool) (yes no : Motion α) : Motion α :=
  fun p => if test (ls.drop p) then yes p else no p

/-- **Tries a motion**: a failure sets the cursor back to where it was. -/
def attempt (m : Motion α) : Motion (Option α) :=
  fun p => (m p).map fun (outcome, q) =>
    match outcome with
    | .ok a => (.ok (some a), q)
    | .error _ => (.ok none, p)

/-- Does what a reader does that calls no others. -/
def leaf (read : (ts : List Lexeme) → Read α ts) : Motion α :=
  fun p =>
    let reading := read (ls.drop p)
    some (reading.outcome, ls.length - reading.rest.length)

end Motion

open Motion

/-! ### The grammar -/

/-- A motion for each reader of the grammar. -/
structure Motions where
  type : Motion TypeExpr
  joined : TypeExpr → Motion TypeExpr
  union : Motion (List TypeExpr)
  intersection : Motion (List TypeExpr)
  conditional : Subject TypeExpr → Motion TypeExpr
  operand : Motion TypeExpr
  suffixes : TypeExpr → Motion TypeExpr
  atom : Motion TypeExpr
  named : String → Motion TypeExpr
  args : Motion (List TypeExpr)
  moreArgs : Motion (List TypeExpr)
  items : Motion (List (ShapeItem TypeExpr) × Bool)
  moreItems : Motion (List (ShapeItem TypeExpr) × Bool)
  params : Motion (List (CallableParam TypeExpr))
  returns : Motion TypeExpr

/-- No motion comes to an end. -/
def Motions.stuck : Motions where
  type := Motion.stuck
  joined _ := Motion.stuck
  union := Motion.stuck
  intersection := Motion.stuck
  conditional _ := Motion.stuck
  operand := Motion.stuck
  suffixes _ := Motion.stuck
  atom := Motion.stuck
  named _ := Motion.stuck
  args := Motion.stuck
  moreArgs := Motion.stuck
  items := Motion.stuck
  moreItems := Motion.stuck
  params := Motion.stuck
  returns := Motion.stuck

section Grammar

variable (ls : List Lexeme)

/-- **The grammar**, where each motion may call the given ones. -/
def Motions.over (call : Motions) : Motions where
  type :=
    choose ls startsParameterConditional
      (onNext ls (fun _ => true) (fun l => call.conditional (.parameter l.text)) (fail ls .type))
      (onNext ls (isKind .question) (fun _ => call.operand.map .nullable)
        (call.operand.andThen fun first =>
          choose ls (·.head?.any (Lexeme.isWord "is"))
            ((attempt (call.conditional (.type first))).andThen fun found =>
              found.elim (call.joined first) done)
            (call.joined first)))
  joined first :=
    choose ls (·.head?.any (isKind .pipe)) (call.union.map fun more => .union (first :: more))
      (choose ls joinsTypes (call.intersection.map fun more => .intersection (first :: more))
        (done first))
  union :=
    onNext ls (isKind .pipe) (fun _ => call.operand.andThen fun t =>
      call.union.map (t :: ·)) (done [])
  intersection :=
    choose ls joinsTypes
      (onNext ls (isKind .ampersand)
        (fun _ => call.operand.andThen fun t => call.intersection.map (t :: ·)) (done []))
      (done [])
  conditional subject :=
    onNext ls (Lexeme.isWord "is")
      (fun _ =>
        (leaf ls (skipWord "not")).andThen fun negated =>
        call.type.andThen fun target =>
        (leaf ls (expectKind .question "?")).andThen fun _ =>
        call.type.andThen fun yes =>
        (leaf ls (expectKind .colon ":")).andThen fun _ =>
        call.type.map fun no => .conditional subject negated target yes no)
      (fail ls (.written "is"))
  operand := call.atom.andThen call.suffixes
  suffixes type :=
    onNext ls (isTight .squareOpen)
      (fun _ =>
        onNext ls (isKind .squareClose) (fun _ => call.suffixes (.array type))
          (call.type.andThen fun key =>
            (leaf ls (expectKind .squareClose "]")).andThen fun _ =>
              call.suffixes (.offset type key)))
      (done type)
  atom :=
    onNext ls (isKind .parenOpen)
      (fun _ => call.type.andThen fun inner =>
        (leaf ls (expectKind .parenClose ")")).map fun _ => inner)
    <| onNext ls (isKind .this) (fun _ => done .this)
    <| onNext ls (isKind .integer) (fun l => done (.literal (.integer l.text)))
    <| onNext ls (isKind .decimal) (fun l => done (.literal (.decimal l.text)))
    <| onNext ls (isKind .quoted) (fun l => done (.literal (.string (unquote l.chars))))
    <| onNext ls (isKind .identifier) (fun l => call.named l.text)
    <| fail ls .type
  named name :=
    let lower := name.map Char.toLower
    onNext ls (isTight .doubleColon)
      (fun _ => (leaf ls constantName).map fun constant => .literal (.classConstant name constant))
    <| onNext ls (isTight .angleOpen)
      (fun _ => call.args.andThen fun args =>
        if args.isEmpty then fail ls .genericArgument else done (.generic name args))
    <| onNext ls (fun t => isTight .curlyOpen t && (lower == "object" || isShapeName lower))
      (fun _ => call.items.map fun (items, isSealed) =>
        if lower == "object" then .objectShape items else .arrayShape name items isSealed)
    <| onNext ls (fun t => isTight .parenOpen t && isCallableName lower)
      (fun _ =>
        call.params.andThen fun params =>
        (leaf ls (expectKind .parenClose ")")).andThen fun _ =>
        call.returns.map fun returns => .callable name params returns)
    <| done (.identifier name)
  args :=
    onNext ls (isKind .angleClose) (fun _ => done [])
    <| onNext ls (isKind .star) (fun _ => call.moreArgs.map (.identifier "mixed" :: ·))
    <| choose ls isVariance
      (onNext ls (fun _ => true) (fun _ => call.type.andThen fun t => call.moreArgs.map (t :: ·))
        (fail ls .type))
      (call.type.andThen fun t => call.moreArgs.map (t :: ·))
  moreArgs :=
    onNext ls (isKind .comma) (fun _ => call.args)
      ((leaf ls (expectKind .angleClose ">")).map fun _ => [])
  items :=
    onNext ls (isKind .curlyClose) (fun _ => done ([], true))
    <| onNext ls (isKind .ellipsis)
      (fun _ =>
        (onNext ls (isTight .angleOpen)
          (fun _ => call.args.andThen fun args =>
            if args.isEmpty then fail ls .genericArgument else done ())
          (done ())).andThen fun _ =>
        (leaf ls (skipKind .comma)).andThen fun _ =>
        (leaf ls (expectKind .curlyClose "\x7d")).map fun _ => ([], false))
    <| (leaf ls shapeKey).andThen fun (key, isOptional) =>
      call.type.andThen fun value =>
      call.moreItems.map fun (items, isSealed) => (⟨key, isOptional, value⟩ :: items, isSealed)
  moreItems :=
    onNext ls (isKind .comma) (fun _ => call.items)
      ((leaf ls (expectKind .curlyClose "\x7d")).map fun _ => ([], true))
  params :=
    choose ls (·.head?.any (isKind .parenClose)) (done [])
      (call.type.andThen fun type =>
        (leaf ls (skipKind .ampersand)).andThen fun byRef =>
        (leaf ls (skipKind .ellipsis)).andThen fun variadic =>
        (leaf ls takeVariable).andThen fun name =>
        (leaf ls (skipKind .equals)).andThen fun isOptional =>
        onNext ls (isKind .comma)
          (fun _ => call.params.map (⟨type, byRef, variadic, name, isOptional⟩ :: ·))
          (done [⟨type, byRef, variadic, name, isOptional⟩]))
  returns :=
    onNext ls (isKind .colon)
      (fun _ => onNext ls (isKind .question) (fun _ => call.operand.map .nullable) call.operand)
      (done (.identifier "mixed"))

/-- **The motions of the grammar** up to a depth of the recursion. -/
def motions : Nat → Motions
  | 0 => .stuck
  | depth + 1 => (motions depth).over ls

end Grammar

/-! ### Following a reader -/

/-- A list of lexemes is what lies **ahead** of a position. -/
structure Ahead (ls : List Lexeme) (p : Nat) (ts : List Lexeme) : Prop where
  le : p ≤ ls.length
  drop_eq : ls.drop p = ts

/-- **A motion follows a reader**: from where the reader starts it comes to an end, with the outcome
of the reader and in front of what the reader left, and it has not gone back. -/
def Follows (ls : List Lexeme) {α : Type} (m : Motion α) (p : Nat) {ts : List Lexeme}
    (s : Read α ts) :
    Prop :=
  ∃ q, m p = some (s.outcome, q) ∧ p ≤ q ∧ Ahead ls q s.rest

section Follows

variable {ls ts : List Lexeme} {α β : Type} {p : Nat} {m : Motion α} {s : Read α ts}

theorem Ahead.next {l : Lexeme} {us : List Lexeme} (h : Ahead ls p (l :: us)) :
    ls[p]? = some l ∧ Ahead ls (p + 1) us := by
  have hp : p < ls.length := by
    have hlength := congrArg List.length h.drop_eq
    rw [List.length_drop, List.length_cons] at hlength
    omega
  obtain ⟨hl, hus⟩ := List.cons.inj ((List.drop_eq_getElem_cons hp).symm.trans h.drop_eq)
  exact ⟨by rw [List.getElem?_eq_getElem hp, hl], hp, hus⟩

theorem Ahead.getElem?_eq_none (h : Ahead ls p []) : ls[p]? = none :=
  List.getElem?_eq_none (List.drop_eq_nil_iff.1 h.drop_eq)

theorem Ahead.suffix {us : List Lexeme} (h : Ahead ls p ts) (hus : us <:+ ts) :
    p ≤ ls.length - us.length ∧ Ahead ls (ls.length - us.length) us := by
  have hlength : ts.length = ls.length - p := by rw [← h.drop_eq, List.length_drop]
  have hle := hus.length_le
  have hp := h.le
  refine ⟨by omega, by omega, ?_⟩
  obtain ⟨before, rfl⟩ := hus
  rw [List.length_append] at hlength
  have hsplit : ls.length - us.length = p + before.length := by omega
  rw [hsplit, ← List.drop_drop, h.drop_eq, List.drop_left]

theorem Ahead.unique {q : Nat} (h : Ahead ls p ts) (h' : Ahead ls q ts) : p = q := by
  have hlength := congrArg List.length (h.drop_eq.trans h'.drop_eq.symm)
  rw [List.length_drop, List.length_drop] at hlength
  have hp := h.le
  have hq := h'.le
  omega

theorem follows_done (h : Ahead ls p ts) (a : α) :
    Follows ls (Motion.done a) p (.done a : Read α ts) :=
  ⟨p, rfl, Nat.le_refl p, h⟩

theorem follows_fail (h : Ahead ls p ts) (e : Expected) :
    Follows ls (Motion.fail ls e : Motion α) p (.fail (expected e ts) : Read α ts) :=
  ⟨p, by rw [Motion.fail, h.drop_eq]; rfl, Nat.le_refl p, h⟩

theorem follows_leaf (h : Ahead ls p ts) (read : (ts : List Lexeme) → Read α ts) :
    Follows ls (leaf ls read) p (read ts) := by
  obtain rfl := h.drop_eq
  exact ⟨_, rfl, h.suffix (read _).suffix⟩

theorem Follows.andThen {next : α → Motion β}
    {next' : α → (us : List Lexeme) → us.length ≤ ts.length → Read β us}
    (h : Follows ls m p s)
    (hnext : ∀ a q us le, Ahead ls q us → Follows ls (next a) q (next' a us le)) :
    Follows ls (m.andThen next) p (s.andThen next') := by
  obtain ⟨q, hm, hpq, hq⟩ := h
  rw [Follows, Motion.andThen, hm, Reading.andThen]
  cases s.outcome with
  | error e => exact ⟨q, rfl, hpq, hq⟩
  | ok a =>
    obtain ⟨r, hr, hqr, hrest⟩ := hnext a q s.rest s.suffix.length_le hq
    exact ⟨r, hr, Nat.le_trans hpq hqr, hrest⟩

theorem Follows.map (h : Follows ls m p s) (f : α → β) : Follows ls (m.map f) p (s.map f) := by
  rw [← Reading.andThen_done]
  exact h.andThen fun a q us le hq => follows_done hq (f a)

theorem follows_onNext {test : Lexeme → Bool} {yes : Lexeme → Motion α} {no : Motion α}
    {yes' : Lexeme → (us : List Lexeme) → us.length < ts.length → Read α us}
    {no' : Read α ts} (h : Ahead ls p ts)
    (hyes : ∀ l us lt, Ahead ls (p + 1) us → Follows ls (yes l) (p + 1) (yes' l us lt))
    (hno : Follows ls no p no') :
    Follows ls (Motion.onNext ls test yes no) p (Reading.onNext test ts yes' no') := by
  cases ts with
  | nil =>
    rw [Follows, Motion.onNext, h.getElem?_eq_none]
    exact hno
  | cons l us =>
    have hmotion : Motion.onNext ls test yes no p = if test l then yes l (p + 1) else no p := by
      simp only [Motion.onNext, h.next.1]
    rw [Follows, hmotion, Reading.onNext]
    by_cases htest : test l = true
    · rw [if_pos htest, if_pos htest]
      obtain ⟨q, hq, hpq, hrest⟩ := hyes l us (Nat.lt_succ_self _) h.next.2
      exact ⟨q, hq, by omega, hrest⟩
    · rw [if_neg htest, if_neg htest]
      exact hno

theorem follows_choose (test : List Lexeme → Bool) {yes no : Motion α} {yes' no' : Read α ts}
    (h : Ahead ls p ts) (hyes : Follows ls yes p yes') (hno : Follows ls no p no') :
    Follows ls (Motion.choose ls test yes no) p (if test ts then yes' else no') := by
  rw [Follows, Motion.choose, h.drop_eq]
  cases test ts with
  | false => exact hno
  | true => exact hyes

theorem follows_ite {b : Bool} {yes no : Motion α} {yes' no' : Read α ts}
    (hyes : Follows ls yes p yes') (hno : Follows ls no p no') :
    Follows ls (if b then yes else no) p (if b then yes' else no') := by
  cases b with
  | false => exact hno
  | true => exact hyes

/-- **An attempt is undone** if it fails: what follows starts from where the attempt did. -/
theorem Follows.attempt {other : Motion α} {other' : Read α ts} (h : Follows ls m p s)
    (hother : Follows ls other p other') :
    Follows ls ((attempt m).andThen fun found => found.elim other Motion.done) p
      (if s.outcome.isOk then s else other') := by
  obtain ⟨q, hm, hpq, hq⟩ := h
  rw [Follows, Motion.andThen, Motion.attempt, hm]
  cases houtcome : s.outcome with
  | error e => exact hother
  | ok a =>
    have hkept : (if (Except.ok a : Except TypeError α).isOk then s else other') = s := if_pos rfl
    rw [hkept, houtcome]
    exact ⟨q, rfl, hpq, hq⟩

end Follows

/-! ### All readers -/

/-- **Deep enough, every motion follows its reader**: the depth exceeds the measure of the
recursion. -/
structure Complete (ls : List Lexeme) (depth : Nat) : Prop where
  type : ∀ p ts, Ahead ls p ts → 8 * ts.length + 3 < depth →
    Follows ls (motions ls depth).type p (readType ts)
  joined : ∀ first p ts, Ahead ls p ts → 8 * ts.length + 2 < depth →
    Follows ls ((motions ls depth).joined first) p (readJoined first ts)
  union : ∀ p ts, Ahead ls p ts → 8 * ts.length + 1 < depth →
    Follows ls (motions ls depth).union p (readUnion ts)
  intersection : ∀ p ts, Ahead ls p ts → 8 * ts.length + 1 < depth →
    Follows ls (motions ls depth).intersection p (readIntersection ts)
  conditional : ∀ subject p ts, Ahead ls p ts → 8 * ts.length + 1 < depth →
    Follows ls ((motions ls depth).conditional subject) p (readConditional subject ts)
  operand : ∀ p ts, Ahead ls p ts → 8 * ts.length + 1 < depth →
    Follows ls (motions ls depth).operand p (readOperand ts)
  suffixes : ∀ type p ts, Ahead ls p ts → 8 * ts.length < depth →
    Follows ls ((motions ls depth).suffixes type) p (readSuffixes type ts)
  atom : ∀ p ts, Ahead ls p ts → 8 * ts.length < depth →
    Follows ls (motions ls depth).atom p (readAtom ts)
  named : ∀ name p ts, Ahead ls p ts → 8 * ts.length + 3 < depth →
    Follows ls ((motions ls depth).named name) p (readNamed name ts)
  args : ∀ p ts, Ahead ls p ts → 8 * ts.length + 4 < depth →
    Follows ls (motions ls depth).args p (readArgs ts)
  moreArgs : ∀ p ts, Ahead ls p ts → 8 * ts.length < depth →
    Follows ls (motions ls depth).moreArgs p (readMoreArgs ts)
  items : ∀ p ts, Ahead ls p ts → 8 * ts.length + 4 < depth →
    Follows ls (motions ls depth).items p (readItems ts)
  moreItems : ∀ p ts, Ahead ls p ts → 8 * ts.length < depth →
    Follows ls (motions ls depth).moreItems p (readMoreItems ts)
  params : ∀ p ts, Ahead ls p ts → 8 * ts.length + 4 < depth →
    Follows ls (motions ls depth).params p (readParams ts)
  returns : ∀ p ts, Ahead ls p ts → 8 * ts.length < depth →
    Follows ls (motions ls depth).returns p (readReturns ts)

/-- An atom is chosen by the kind of the next lexeme. -/
theorem readAtom_eq (ts : List Lexeme) :
    readAtom ts =
      Reading.onNext (isKind .parenOpen) ts
        (fun _ us _ => (readType us).andThen fun inner vs _ =>
          (expectKind .parenClose ")" vs).map fun _ => inner)
      (Reading.onNext (isKind .this) ts (fun _ _ _ => .done .this)
      (Reading.onNext (isKind .integer) ts (fun l _ _ => .done (.literal (.integer l.text)))
      (Reading.onNext (isKind .decimal) ts (fun l _ _ => .done (.literal (.decimal l.text)))
      (Reading.onNext (isKind .quoted) ts
        (fun l _ _ => .done (.literal (.string (unquote l.chars))))
      (Reading.onNext (isKind .identifier) ts (fun l us _ => readNamed l.text us)
        (.fail (expected .type ts))))))) := by
  cases ts with
  | nil => rw [readAtom]; rfl
  | cons l us =>
    obtain ⟨gap, kind, chars⟩ := l
    cases kind <;> rw [readAtom] <;> rfl

section Steps

variable {ls ts : List Lexeme} {depth p : Nat}

theorem follows_type (ih : Complete ls depth) (h : Ahead ls p ts)
    (hn : 8 * ts.length + 3 < depth + 1) :
    Follows ls (motions ls (depth + 1)).type p (readType ts) := by
  rw [readType]
  refine follows_choose startsParameterConditional h ?_ ?_
  · exact follows_onNext h (fun l us lt h => ih.conditional _ _ us h (by omega)) (follows_fail h _)
  refine follows_onNext h (fun _ us lt h => (ih.operand _ us h (by omega)).map _) ?_
  refine (ih.operand _ ts h (by omega)).andThen fun first q us le h => ?_
  have hjoined := ih.joined first _ us h (by omega)
  have hattempt := (ih.conditional (.type first) _ us h (by omega)).attempt hjoined
  have hfollows := follows_choose (·.head?.any (Lexeme.isWord "is")) h hattempt hjoined
  cases hword : us.head?.any (Lexeme.isWord "is") with
  | false =>
    rw [hword] at hfollows
    exact hfollows
  | true =>
    rw [hword, if_pos rfl] at hfollows
    cases hok : (readConditional (.type first) us).outcome.isOk <;>
      simpa only [if_true, Option.filter_some, hok, Bool.false_eq_true, if_false] using hfollows

theorem follows_joined (ih : Complete ls depth) (first : TypeExpr) (h : Ahead ls p ts)
    (hn : 8 * ts.length + 2 < depth + 1) :
    Follows ls ((motions ls (depth + 1)).joined first) p (readJoined first ts) := by
  rw [readJoined]
  refine follows_choose (·.head?.any (isKind .pipe)) h ((ih.union _ ts h (by omega)).map _) ?_
  exact follows_choose joinsTypes h ((ih.intersection _ ts h (by omega)).map _) (follows_done h _)

theorem follows_union (ih : Complete ls depth) (h : Ahead ls p ts)
    (hn : 8 * ts.length + 1 < depth + 1) :
    Follows ls (motions ls (depth + 1)).union p (readUnion ts) := by
  rw [readUnion]
  refine follows_onNext h (fun _ us lt h => ?_) (follows_done h _)
  refine (ih.operand _ us h (by omega)).andThen fun t q vs le h => ?_
  exact (ih.union _ vs h (by omega)).map _

theorem follows_intersection (ih : Complete ls depth) (h : Ahead ls p ts)
    (hn : 8 * ts.length + 1 < depth + 1) :
    Follows ls (motions ls (depth + 1)).intersection p (readIntersection ts) := by
  rw [readIntersection]
  refine follows_choose joinsTypes h ?_ (follows_done h _)
  refine follows_onNext h (fun _ us lt h => ?_) (follows_done h _)
  refine (ih.operand _ us h (by omega)).andThen fun t q vs le h => ?_
  exact (ih.intersection _ vs h (by omega)).map _

theorem follows_conditional (ih : Complete ls depth) (subject : Subject TypeExpr)
    (h : Ahead ls p ts) (hn : 8 * ts.length + 1 < depth + 1) :
    Follows ls ((motions ls (depth + 1)).conditional subject) p (readConditional subject ts) := by
  rw [readConditional]
  refine follows_onNext h (fun _ us lt h => ?_) (follows_fail h _)
  refine (follows_leaf h _).andThen fun negated q us₁ le₁ h => ?_
  refine (ih.type _ us₁ h (by omega)).andThen fun target q us₂ le₂ h => ?_
  refine (follows_leaf h _).andThen fun _ q us₃ le₃ h => ?_
  refine (ih.type _ us₃ h (by omega)).andThen fun yes q us₄ le₄ h => ?_
  refine (follows_leaf h _).andThen fun _ q us₅ le₅ h => ?_
  exact (ih.type _ us₅ h (by omega)).map _

theorem follows_operand (ih : Complete ls depth) (h : Ahead ls p ts)
    (hn : 8 * ts.length + 1 < depth + 1) :
    Follows ls (motions ls (depth + 1)).operand p (readOperand ts) := by
  rw [readOperand]
  exact (ih.atom _ ts h (by omega)).andThen fun t q us le h => ih.suffixes t _ us h (by omega)

theorem follows_suffixes (ih : Complete ls depth) (type : TypeExpr) (h : Ahead ls p ts)
    (hn : 8 * ts.length < depth + 1) :
    Follows ls ((motions ls (depth + 1)).suffixes type) p (readSuffixes type ts) := by
  rw [readSuffixes]
  refine follows_onNext h (fun _ us lt h => ?_) (follows_done h _)
  refine follows_onNext h (fun _ vs lt' h => ih.suffixes _ _ vs h (by omega)) ?_
  refine (ih.type _ us h (by omega)).andThen fun key q vs le h => ?_
  exact (follows_leaf h _).andThen fun _ q ws le' h => ih.suffixes _ _ ws h (by omega)

theorem follows_atom (ih : Complete ls depth) (h : Ahead ls p ts) (hn : 8 * ts.length < depth + 1) :
    Follows ls (motions ls (depth + 1)).atom p (readAtom ts) := by
  rw [readAtom_eq]
  refine follows_onNext h (fun _ us lt h => ?_) ?_
  · exact (ih.type _ us h (by omega)).andThen fun inner q vs le h => (follows_leaf h _).map _
  refine follows_onNext h (fun _ us lt h => follows_done h _) ?_
  refine follows_onNext h (fun _ us lt h => follows_done h _) ?_
  refine follows_onNext h (fun _ us lt h => follows_done h _) ?_
  refine follows_onNext h (fun _ us lt h => follows_done h _) ?_
  exact follows_onNext h (fun l us lt h => ih.named _ _ us h (by omega)) (follows_fail h _)

theorem follows_named (ih : Complete ls depth) (name : String) (h : Ahead ls p ts)
    (hn : 8 * ts.length + 3 < depth + 1) :
    Follows ls ((motions ls (depth + 1)).named name) p (readNamed name ts) := by
  rw [readNamed]
  refine follows_onNext h (fun _ us lt h => (follows_leaf h _).map _) ?_
  refine follows_onNext h (fun _ us lt h => ?_) ?_
  · refine (ih.args _ us h (by omega)).andThen fun args q vs le h => ?_
    exact follows_ite (follows_fail h _) (follows_done h _)
  refine follows_onNext h (fun _ us lt h => (ih.items _ us h (by omega)).map _) ?_
  refine follows_onNext h (fun _ us lt h => ?_) (follows_done h _)
  refine (ih.params _ us h (by omega)).andThen fun params q vs le h => ?_
  refine (follows_leaf h _).andThen fun _ q ws le' h => ?_
  exact (ih.returns _ ws h (by omega)).map _

theorem follows_args (ih : Complete ls depth) (h : Ahead ls p ts)
    (hn : 8 * ts.length + 4 < depth + 1) :
    Follows ls (motions ls (depth + 1)).args p (readArgs ts) := by
  rw [readArgs]
  refine follows_onNext h (fun _ us lt h => follows_done h _) ?_
  refine follows_onNext h (fun _ us lt h => (ih.moreArgs _ us h (by omega)).map _) ?_
  refine follows_choose isVariance h (follows_onNext h (fun _ us lt h => ?_) (follows_fail h _)) ?_
  · exact (ih.type _ us h (by omega)).andThen fun t q vs le h =>
      (ih.moreArgs _ vs h (by omega)).map _
  · exact (ih.type _ ts h (by omega)).andThen fun t q vs le h =>
      (ih.moreArgs _ vs h (by omega)).map _

theorem follows_moreArgs (ih : Complete ls depth) (h : Ahead ls p ts)
    (hn : 8 * ts.length < depth + 1) :
    Follows ls (motions ls (depth + 1)).moreArgs p (readMoreArgs ts) := by
  rw [readMoreArgs]
  exact follows_onNext h (fun _ us lt h => ih.args _ us h (by omega)) ((follows_leaf h _).map _)

theorem follows_items (ih : Complete ls depth) (h : Ahead ls p ts)
    (hn : 8 * ts.length + 4 < depth + 1) :
    Follows ls (motions ls (depth + 1)).items p (readItems ts) := by
  rw [readItems]
  refine follows_onNext h (fun _ us lt h => follows_done h _) ?_
  refine follows_onNext h (fun _ us lt h => ?_) ?_
  · refine Follows.andThen ?_ fun _ q us₁ le₁ h => ?_
    · refine follows_onNext h (fun _ vs lt' h => ?_) (follows_done h _)
      refine (ih.args _ vs h (by omega)).andThen fun args q ws le h => ?_
      exact follows_ite (follows_fail h _) (follows_done h _)
    · exact (follows_leaf h _).andThen fun _ q us₂ le₂ h => (follows_leaf h _).map _
  · refine (follows_leaf h _).andThen fun found q us le h => ?_
    refine (ih.type _ us h (by omega)).andThen fun value q vs le' h => ?_
    exact (ih.moreItems _ vs h (by omega)).map _

theorem follows_moreItems (ih : Complete ls depth) (h : Ahead ls p ts)
    (hn : 8 * ts.length < depth + 1) :
    Follows ls (motions ls (depth + 1)).moreItems p (readMoreItems ts) := by
  rw [readMoreItems]
  exact follows_onNext h (fun _ us lt h => ih.items _ us h (by omega)) ((follows_leaf h _).map _)

theorem follows_params (ih : Complete ls depth) (h : Ahead ls p ts)
    (hn : 8 * ts.length + 4 < depth + 1) :
    Follows ls (motions ls (depth + 1)).params p (readParams ts) := by
  rw [readParams]
  refine follows_choose (·.head?.any (isKind .parenClose)) h (follows_done h _) ?_
  refine (ih.type _ ts h (by omega)).andThen fun type q us₁ le₁ h => ?_
  refine (follows_leaf h _).andThen fun byRef q us₂ le₂ h => ?_
  refine (follows_leaf h _).andThen fun variadic q us₃ le₃ h => ?_
  refine (follows_leaf h _).andThen fun name q us₄ le₄ h => ?_
  refine (follows_leaf h _).andThen fun isOptional q us₅ le₅ h => ?_
  exact follows_onNext h (fun _ vs lt h => (ih.params _ vs h (by omega)).map _) (follows_done h _)

theorem follows_returns (ih : Complete ls depth) (h : Ahead ls p ts)
    (hn : 8 * ts.length < depth + 1) :
    Follows ls (motions ls (depth + 1)).returns p (readReturns ts) := by
  rw [readReturns]
  refine follows_onNext h (fun _ us lt h => ?_) (follows_done h _)
  refine follows_onNext h (fun _ vs lt' h => (ih.operand _ vs h (by omega)).map _) ?_
  exact ih.operand _ us h (by omega)

end Steps

theorem complete_all (ls : List Lexeme) (depth : Nat) : Complete ls depth := by
  induction depth with
  | zero =>
    constructor
    all_goals
      intros
      contradiction
  | succ depth ih => exact {
      type := fun _ _ => follows_type ih
      joined := fun first _ _ => follows_joined ih first
      union := fun _ _ => follows_union ih
      intersection := fun _ _ => follows_intersection ih
      conditional := fun subject _ _ => follows_conditional ih subject
      operand := fun _ _ => follows_operand ih
      suffixes := fun type _ _ => follows_suffixes ih type
      atom := fun _ _ => follows_atom ih
      named := fun name _ _ => follows_named ih name
      args := fun _ _ => follows_args ih
      moreArgs := fun _ _ => follows_moreArgs ih
      items := fun _ _ => follows_items ih
      moreItems := fun _ _ => follows_moreItems ih
      params := fun _ _ => follows_params ih
      returns := fun _ _ => follows_returns ih }

end PhpHandbook.DocBlock
