import PhpHandbook.Proofs.CursorMotions
import PhpHandbook.Proofs.TypesInFront

/-!
# The type cursor moves forward

A tag is read by steps of one cursor: a type, a mark, a variable, a name or a word.  Whatever steps
are taken on whatever text, each of them comes to an end, no step goes back, and none leaves the
lexemes of the text.  What is not read yet is at each position the text from the start of the next
lexeme on.

The attempt at a conditional is the one place where the cursor has to be set back.  It leaves no
trace: a type in front of an `is` that begins no conditional is read as if nothing stood behind it.

## Main definitions

* `CursorStep`, `stops`: steps of the cursor, and where it stops after each of them.
* `Moves`, `Journey`: what is known of a step, and of a sequence of steps.
* `startAt`: where a lexeme starts in the text.

## Main statements

* `moves_motion`: every step comes to an end and moves forward.
* `unread_drop`: what is not read at a position.
* `readType_before_is`: an attempt at a conditional that is given up leaves no trace.
* `stops_forward`: all of this for a sequence of steps on a text.
-/

namespace PhpHandbook.Text

/-- Blank characters at the end are dropped with those in front of them. -/
theorem stripBlank_append {cs : List Char} (hblank : ∀ c ∈ cs, isBlank c = true)
    (text : List Char) :
    stripBlank (text ++ cs) = stripBlank text := by
  have hfront : dropBlank cs = [] := List.dropWhile_eq_nil_iff.2 hblank
  have hback (front : List Char) : dropBlankEnd (front ++ cs) = dropBlankEnd front := by
    rw [dropBlankEnd, dropBlankEnd, List.reverse_append, List.dropWhile_append]
    have hnil : cs.reverse.dropWhile isBlank = [] :=
      List.dropWhile_eq_nil_iff.2 fun c hc => hblank c (List.mem_reverse.1 hc)
    rw [hnil]
    rfl
  rw [stripBlank, stripBlank, dropBlank, List.dropWhile_append]
  split
  · next hnil =>
    have hnil : text.dropWhile isBlank = [] := List.isEmpty_iff.1 hnil
    rw [dropBlank, hnil]
    exact congrArg dropBlankEnd hfront
  · exact hback _

end PhpHandbook.Text

namespace PhpHandbook.DocBlock

open Reading Motion

/-! ### Steps -/

/-- **A step** of the cursor. -/
inductive CursorStep where
  /-- Reads a type. -/
  | type
  /-- Takes a lexeme of the given kind if it is next. -/
  | mark (kind : LexemeKind)
  /-- Takes a variable if it is next. -/
  | variableName
  /-- Takes an identifier if it is next. -/
  | identifier
  /-- Takes the given word if it is next. -/
  | word (text : String)

/-- What a step finds. -/
inductive Found where
  | type (type : TypeExpr)
  | mark (found : Bool)
  | name (name : Option String)

/-- The reader of a step. -/
def CursorStep.read (ts : List Lexeme) : CursorStep → Read Found ts
  | .type => (readType ts).map .type
  | .mark kind => (skipKind kind ts).map .mark
  | .variableName => (takeVariable ts).map .name
  | .identifier => (takeIdentifier ts).map .name
  | .word text => (skipWord text ts).map .mark

/-- The motion of a step, with a depth for the recursion. -/
def CursorStep.motion (ls : List Lexeme) (depth : Nat) : CursorStep → Motion Found
  | .type => (motions ls depth).type.map .type
  | .mark kind => (leaf ls (skipKind kind)).map .mark
  | .variableName => (leaf ls takeVariable).map .name
  | .identifier => (leaf ls takeIdentifier).map .name
  | .word text => (leaf ls (skipWord text)).map .mark

/-- A place where the cursor stops, with the outcome of the step that led there. -/
structure Stop where
  outcome : Except TypeError Found
  position : Nat

/-- **Where the cursor stops** after each of some steps, if all of them come to an end. -/
def stops (ls : List Lexeme) (depth : Nat) : Nat → List CursorStep → Option (List Stop)
  | _, [] => some []
  | p, step :: steps =>
    (step.motion ls depth p).bind fun (outcome, q) =>
      (stops ls depth q steps).map (⟨outcome, q⟩ :: ·)

/-- The depth of recursion that is enough for a list of lexemes. -/
def enoughDepth (ls : List Lexeme) : Nat :=
  8 * ls.length + 4

/-- **A step moves forward** from a position: it gives what its reader gives for the lexemes ahead,
and stops where the reader left off, not further back and not beyond the lexemes; a type takes one
at least. -/
structure Moves (ls : List Lexeme) (p : Nat) (step : CursorStep) (stop : Stop) : Prop where
  outcome : stop.outcome = (step.read (ls.drop p)).outcome
  rest : ls.drop stop.position = (step.read (ls.drop p)).rest
  forward : p ≤ stop.position
  within : stop.position ≤ ls.length
  advances : step = .type → stop.outcome.isOk = true → p < stop.position

/-- **Steps that move forward**, one after the other. -/
inductive Journey (ls : List Lexeme) : Nat → List CursorStep → List Stop → Prop
  | nil {p : Nat} : Journey ls p [] []
  | cons {p : Nat} {step : CursorStep} {stop : Stop} {steps : List CursorStep} {more : List Stop}
      (h : Moves ls p step stop) (hmore : Journey ls stop.position steps more) :
      Journey ls p (step :: steps) (stop :: more)

section Steps

variable {ls : List Lexeme} {p : Nat}

theorem follows_readType {depth : Nat} (hdepth : enoughDepth ls ≤ depth) (hp : p ≤ ls.length) :
    Follows ls (motions ls depth).type p (readType (ls.drop p)) := by
  have hlength : (ls.drop p).length = ls.length - p := List.length_drop
  rw [enoughDepth] at hdepth
  exact (complete_all ls depth).type p _ ⟨hp, rfl⟩ (by omega)

theorem follows_motion {depth : Nat} (hdepth : enoughDepth ls ≤ depth) (hp : p ≤ ls.length)
    (step : CursorStep) : Follows ls (step.motion ls depth) p (step.read (ls.drop p)) := by
  have hahead : Ahead ls p (ls.drop p) := ⟨hp, rfl⟩
  cases step with
  | type => exact (follows_readType hdepth hp).map _
  | mark kind => exact (follows_leaf hahead _).map _
  | variableName => exact (follows_leaf hahead _).map _
  | identifier => exact (follows_leaf hahead _).map _
  | word text => exact (follows_leaf hahead _).map _

/-- **Every step comes to an end** and moves forward, however deep the recursion may go beyond what
is enough. -/
theorem moves_motion (hp : p ≤ ls.length) (step : CursorStep) :
    ∃ stop, Moves ls p step stop ∧
      ∀ depth, enoughDepth ls ≤ depth →
      step.motion ls depth p = some (stop.outcome, stop.position) := by
  obtain ⟨q, -, hpq, hq⟩ := follows_motion (Nat.le_refl _) hp step
  refine ⟨⟨(step.read (ls.drop p)).outcome, q⟩, ⟨rfl, hq.drop_eq, hpq, hq.le, ?_⟩,
    fun depth hdepth => ?_⟩
  · rintro rfl hok
    change ((readType (ls.drop p)).map Found.type).outcome.isOk = true at hok
    obtain ⟨t, ht⟩ : ∃ t, (readType (ls.drop p)).outcome = .ok t := by
      cases houtcome : ((readType (ls.drop p)).map Found.type).outcome with
      | ok found =>
        obtain ⟨t, ht, -⟩ := outcome_map_eq_ok_iff.1 houtcome
        exact ⟨t, ht⟩
      | error e =>
        rw [houtcome] at hok
        cases hok
    have hrest : ls.drop q = (readType (ls.drop p)).rest := hq.drop_eq.trans (rest_map _ _)
    have hlt := readType_advances _ t ht
    rw [← hrest, List.length_drop, List.length_drop] at hlt
    show p < q
    omega
  · obtain ⟨r, hr, -, hrest⟩ := follows_motion hdepth hp step
    obtain rfl := hrest.unique hq
    exact hr

/-- **All steps come to an end**, each moving forward from where the one before it stopped. -/
theorem journey_stops (hp : p ≤ ls.length) (steps : List CursorStep) :
    ∃ log, Journey ls p steps log ∧
      ∀ depth, enoughDepth ls ≤ depth → stops ls depth p steps = some log := by
  induction steps generalizing p with
  | nil => exact ⟨[], .nil, fun depth _ => rfl⟩
  | cons step steps ih =>
    obtain ⟨stop, hmoves, hstop⟩ := moves_motion hp step
    obtain ⟨more, hjourney, hmore⟩ := ih hmoves.within
    refine ⟨stop :: more, .cons hmoves hjourney, fun depth hdepth => ?_⟩
    rw [stops, hstop depth hdepth, Option.bind_some]
    simp only [hmore depth hdepth, Option.map_some]

/-- A position never gets smaller on a journey. -/
theorem Journey.sorted {steps : List CursorStep} {log : List Stop} (h : Journey ls p steps log) :
    (p :: log.map Stop.position).Pairwise (· ≤ ·) ∧
      ∀ stop ∈ log, stop.position ≤ ls.length := by
  induction h with
  | nil => exact ⟨List.pairwise_singleton _ _, List.forall_mem_nil _⟩
  | @cons p step stop steps more h hmore ih =>
    obtain ⟨hsorted, hwithin⟩ := ih
    refine ⟨List.pairwise_cons.2 ⟨fun q hq => ?_, hsorted⟩,
      List.forall_mem_cons.2 ⟨h.within, hwithin⟩⟩
    rcases List.mem_cons.1 hq with rfl | hq
    · exact h.forward
    · exact Nat.le_trans h.forward ((List.pairwise_cons.1 hsorted).1 q hq)

end Steps

/-! ### What is not read yet -/

/-- **Where a lexeme starts** in the text: behind those in front of it, and behind its gap. -/
def startAt (ls : List Lexeme) (p : Nat) : Nat :=
  (spell (ls.take p)).length + (ls[p]?.elim 0 fun l => l.gap.length)

theorem isBlank_of_isGap {c : Char} (hc : isGap c = true) : Text.isBlank c = true := by
  simp only [isGap, Bool.or_eq_true, beq_iff_eq] at hc
  rcases hc with ((rfl | rfl) | rfl) | rfl <;> decide +kernel

/-- **Lexemes with their gaps** are the text, up to the gap at its end. -/
theorem exists_gap_spell_lexemesFrom {before : List Char}
    (hbefore : ∀ c ∈ before, isGap c = true) (text : List Char) :
    ∃ gap, before ++ text = spell (lexemesFrom before text) ++ gap ∧
      ∀ c ∈ gap, isGap c = true := by
  induction before, text using lexemesFrom.induct with
  | case1 before =>
    rw [lexemesFrom, List.append_nil]
    exact ⟨before, rfl, hbefore⟩
  | case2 before c cs hc ih =>
    obtain ⟨gap, htext, hgap⟩ := ih (List.forall_mem_append.2 ⟨hbefore, by simpa using hc⟩)
    rw [lexemesFrom, if_pos hc]
    exact ⟨gap, by rw [← htext, List.append_assoc]; rfl, hgap⟩
  | case3 before c cs hc kind n hmunch ih =>
    obtain ⟨gap, htext, hgap⟩ := ih (List.forall_mem_nil _)
    rw [lexemesFrom, if_neg hc, hmunch]
    refine ⟨gap, ?_, hgap⟩
    rw [List.nil_append] at htext
    rw [spell_cons, List.append_assoc, ← htext, List.append_assoc, List.cons_append,
      List.take_append_drop]

theorem drop_startAt {ls : List Lexeme} {p : Nat} {l : Lexeme} (hl : ls[p]? = some l)
    (gap : List Char) :
    (spell ls ++ gap).drop (startAt ls p) = l.chars ++ spell (ls.drop (p + 1)) ++ gap := by
  obtain ⟨hp, hget⟩ := List.getElem?_eq_some_iff.1 hl
  have hsplit : ls = ls.take p ++ l :: ls.drop (p + 1) := by
    rw [← hget, ← List.drop_eq_getElem_cons hp, List.take_append_drop]
  have htext : spell ls ++ gap
      = (spell (ls.take p) ++ l.gap) ++ (l.chars ++ spell (ls.drop (p + 1)) ++ gap) := by
    conv_lhs => rw [hsplit]
    simp only [spell_append, spell_cons, List.append_assoc]
  rw [htext]
  exact List.drop_left' (by rw [startAt, hl, List.length_append]; rfl)

/-- **What is not read** at a position is the text from the start of the next lexeme on, without
blanks around it. -/
theorem unread_drop {text : String} {p : Nat} {l : Lexeme}
    (hl : (lexemes text.toList)[p]? = some l) :
    l.chars <+: text.toList.drop (startAt (lexemes text.toList) p) ∧
      unread ((lexemes text.toList).drop p)
        = Text.trim (String.ofList (text.toList.drop (startAt (lexemes text.toList) p))) := by
  obtain ⟨gap, htext, hgap⟩ := exists_gap_spell_lexemesFrom (List.forall_mem_nil _) text.toList
  rw [List.nil_append, ← lexemes] at htext
  have hstart := drop_startAt hl gap
  rw [← htext] at hstart
  obtain ⟨hp, hget⟩ := List.getElem?_eq_some_iff.1 hl
  refine ⟨⟨_, by rw [hstart, List.append_assoc]⟩, ?_⟩
  rw [List.drop_eq_getElem_cons hp, hget, unread, hstart, Text.trim, Text.trim,
    String.toList_ofList, String.toList_ofList,
    Text.stripBlank_append fun c hc => isBlank_of_isGap (hgap c hc)]
  rfl

/-! ### Attempts that are given up -/

/-- **A type in front of an `is` that begins no conditional** is read as if nothing stood behind
it. -/
theorem readType_before_is {ts r : List Lexeme} {t : TypeExpr} (h : (readType ts).Reads t [])
    (hword : r.head?.any (Lexeme.isWord "is") = true)
    (hno : ∀ subject c vs, ¬ (readConditional subject r).Reads c vs) :
    (readType (ts ++ r)).Reads t r :=
  readType_append (adjoins_is hword) h (.abandoned hword fun _ => hno _)

/-- **The cursor moves forward.**  Any steps on any text come to an end with recursion of a depth
that is bounded by the number of lexemes: each of them stops at a position that is not further back
than the one before it and not beyond the lexemes, and further on if it was a type.  At every
position the text from the start of the next lexeme on is what is not read yet.  A type in front of
an `is` that begins no conditional is read alone, and the cursor stops in front of the `is`. -/
theorem stops_forward (text : String) :
    (∀ steps, ∃ log, Journey (lexemes text.toList) 0 steps log ∧
      (0 :: log.map Stop.position).Pairwise (· ≤ ·) ∧
      (∀ stop ∈ log, stop.position ≤ (lexemes text.toList).length) ∧
      ∀ depth, enoughDepth (lexemes text.toList) ≤ depth →
        stops (lexemes text.toList) depth 0 steps = some log) ∧
    (∀ p l, (lexemes text.toList)[p]? = some l →
      l.chars <+: text.toList.drop (startAt (lexemes text.toList) p) ∧
      unread ((lexemes text.toList).drop p)
        = Text.trim (String.ofList (text.toList.drop (startAt (lexemes text.toList) p)))) ∧
    (∀ p, (lexemes text.toList)[p]? = none → unread ((lexemes text.toList).drop p) = "") ∧
    ∀ p q t, p ≤ q → q ≤ (lexemes text.toList).length →
      (readType (((lexemes text.toList).take q).drop p)).Reads t [] →
      ((lexemes text.toList).drop q).head?.any (Lexeme.isWord "is") = true →
      (∀ subject c vs, ¬ (readConditional subject ((lexemes text.toList).drop q)).Reads c vs) →
      ∀ depth, enoughDepth (lexemes text.toList) ≤ depth →
        (motions (lexemes text.toList) depth).type p = some (.ok t, q) := by
  refine ⟨fun steps => ?_, fun p l hl => unread_drop hl, fun p hp => ?_, ?_⟩
  · obtain ⟨log, hjourney, hstops⟩ := journey_stops (Nat.zero_le _) steps
    obtain ⟨hsorted, hwithin⟩ := hjourney.sorted
    exact ⟨log, hjourney, hsorted, hwithin, hstops⟩
  · rw [List.drop_eq_nil_of_le (List.getElem?_eq_none_iff.1 hp)]
    rfl
  · intro p q t hpq hq ht hword hno depth hdepth
    obtain ⟨r, hr, -, hrest⟩ := follows_readType hdepth (Nat.le_trans hpq hq)
    have hbetween : ((lexemes text.toList).take q).drop p ++ (lexemes text.toList).drop q
        = (lexemes text.toList).drop p := by
      rw [← List.drop_append_of_le_length (by rw [List.length_take]; omega),
        List.take_append_drop]
    have hreads := readType_before_is ht hword hno
    rw [hbetween] at hreads
    rw [hreads.2] at hrest
    rw [hr, hreads.1, hrest.unique ⟨hq, rfl⟩]

/-- The words `is the` behind a type are description. -/
theorem stops_forward_flag :
    (readType (((lexemes "bool is the flag".toList).take 1).drop 0)).Reads
    (.identifier "bool") [] ∧
      ((lexemes "bool is the flag".toList).drop 1).head?.any (Lexeme.isWord "is") = true ∧
      (∀ subject c vs,
        ¬ (readConditional subject ((lexemes "bool is the flag".toList).drop 1)).Reads c vs) ∧
      (motions (lexemes "bool is the flag".toList)
        (enoughDepth (lexemes "bool is the flag".toList))).type 0
          = some (.ok (.identifier "bool"), 1) := by
  have htype : (readType (((lexemes "bool is the flag".toList).take 1).drop 0)).Reads
      (.identifier "bool") [] := ⟨by with_unfolding_all rfl, by with_unfolding_all rfl⟩
  have hword :
      ((lexemes "bool is the flag".toList).drop 1).head?.any (Lexeme.isWord "is") = true := by
    with_unfolding_all rfl
  have hno : ∀ subject c vs,
      ¬ (readConditional subject ((lexemes "bool is the flag".toList).drop 1)).Reads c vs := by
    intro subject c vs h
    have herror : (readConditional subject ((lexemes "bool is the flag".toList).drop 1)).outcome
        = .error (.unexpected (.written "?") "flag") := by
      with_unfolding_all rfl
    cases herror.symm.trans h.1
  have hlength : (lexemes "bool is the flag".toList).length = 4 := by with_unfolding_all rfl
  exact ⟨htype, hword, hno, (stops_forward "bool is the flag").2.2.2 0 1 _ (Nat.zero_le 1)
    (by rw [hlength]; decide) htype hword hno _ (Nat.le_refl _)⟩

end PhpHandbook.DocBlock
