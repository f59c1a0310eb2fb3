import PhpHandbook.Proofs.Lossless
import PhpHandbook.Proofs.Positions
import PhpHandbook.Proofs.ReaderLoops

/-!
# Reading declarations ends

The body of a class and the statements of a file are read in loops that go on after a fault.  What
makes them end is not in one place: going on after a fault does not move in front of a closing
brace, a step in front of the end of the file goes nowhere, and some faults are found before
anything is taken.  Together they leave no round without progress, for a round never starts where
going on would stay.

With the loops of `ReaderLoops` these are all loops of the readers.  Read against a stream of tokens
that ends with the end of the file, fewer items are a position further on, and no position is beyond
the end.

## Main definitions

* `LoopName.loop`: all loops of the readers.
* `Loop.Ends`: what a loop does on a stream of tokens.

## Main statements

* `resumeMember_rest_lt`: going on after a fault in the body of a class moves forward.
* `LoopName.loop_sound`: all loops are sound.
* `readers_end`: they end on every stream, and reading a text is such a run.
-/

namespace PhpHandbook.Declaration

open Source (Token)

/-! ### Bodies and files -/

section Files

variable (env : Env)

/-- The statements in the body of a class. -/
def bodyRound (ms : Members) (ts : List Item) : Read (Turn Members (Members × List Fault)) ts :=
  if atBodyEnd ts then .done (.stop (ms, []))
  else
    match readMember env ts with
    | ⟨.ok member, us, suffix⟩ => ⟨.ok (.go (ms.add member) id), us, suffix⟩
    | ⟨.error fault, us, suffix⟩ =>
      ((resumeMember env us).ignore.map fun _ =>
        .go ms fun (ms, faults) => (ms, fault :: faults)).widen suffix

/-- **Going on after a fault in a body moves forward**: where it stays at a closing brace, the
statement with the fault has taken something, since it did not start there. -/
theorem resumeMember_rest_lt {ts us : List Item} (hts : ¬atBodyEnd ts = true) (hus : us <:+ ts) :
    (resumeMember env us).rest.length < ts.length := by
  have hle := hus.length_le
  by_cases hend : atBodyEnd us = true
  · have hlt : us.length < ts.length := by
      refine Nat.lt_of_le_of_ne hle fun heq => hts ?_
      rwa [← hus.eq_of_length heq]
    exact Nat.lt_of_le_of_lt (resumeMember env us).rest_length_le hlt
  · cases us with
    | nil => exact absurd rfl hend
    | cons t us =>
      have hclose : ¬next (isMark .braceClose) (t :: us) = true :=
        fun h => hend (by simp [atBodyEnd, h])
      have hrest := (skipToMember env us).rest_length_le
      rw [resumeMember, if_neg hclose]
      exact Nat.lt_of_lt_of_le (Nat.lt_succ_of_le hrest) hle

theorem bodyLoop_sound : (Loop.ofReader (bodyRound env) (readBody env)).Sound := by
  refine Loop.sound_ofReader (fun ms ts => ?_) fun ms ts => ?_
  · rw [readBody, bodyRound]
    split
    · rfl
    · split
      · next member us suffix hm =>
        show (readBody env (ms.add member) us).widen suffix = _
        rw [hm]
        show _ = ((readBody env (ms.add member) us).map id).widen suffix
        rw [Reading.map_id]
      · next fault us suffix hm =>
        show Reading.widen _ _ = _
        rw [hm]
        rfl
  · rw [bodyRound]
    split
    · exact proceeds_stop _
    · next hend =>
      have hadvances := readMember_advances env ts
      split
      · next member us suffix hm =>
        rw [hm] at hadvances
        exact proceeds_of_advances fun _ _ => hadvances member rfl
      · next fault us suffix hm =>
        exact proceeds_of_advances fun _ _ => resumeMember_rest_lt env hend suffix

/-- The statements of a file. -/
def statementsRound (s : Draft × Bool) : List Item → Round (Draft × Bool) Draft
  | [] => .exit 0 [] s.1
  | t :: us =>
    if separates t then .again (s.1, true) us id
    else if s.2 && namespaceAhead (t :: us) then
      match readNamespace env t.token.span us with
      | ⟨.ok (block, isBraced), vs, _⟩ => .again (s.1.enter block isBraced, true) vs id
      | ⟨.error fault, vs, _⟩ =>
        .again (s.1.addFaults [fault], true) (resumeStatement vs).rest id
    else if s.2 && isKeyword .kwUse t then
      match readImports env us with
      | ⟨.ok items, vs, _⟩ => .again (s.1.addImports items, true) vs id
      | ⟨.error fault, vs, _⟩ =>
        .again (s.1.addFaults [fault], true) (resumeStatement vs).rest id
    else if s.2 && classAhead 0 (t :: us) then
      match readClass env (t :: us) with
      | ⟨.ok (c, faults), vs, _⟩ => .again ((s.1.addFaults faults).addClass c, true) vs id
      | ⟨.error faults, vs, _⟩ =>
        .again (s.1.addFaults faults, true) (resumeStatement vs).rest id
    else if isMark .braceOpen t then
      match skipToClose t.token.span 0 us with
      | ⟨.ok _, vs, _⟩ => .again (s.1, true) vs id
      | ⟨.error fault, vs, _⟩ => .exit 0 vs (s.1.addFaults [fault])
    else if isMark .braceClose t then .again (s.1.leave (env.current us).span, true) us id
    else .again (s.1, false) us id

def statementsLoop : Loop where
  State := Draft × Bool
  Answer := Draft
  round := statementsRound env
  answer s ts := readStatements env s.1 s.2 ts

/-- Going on after a fault outside all classes moves forward. -/
theorem resumeStatement_rest_lt {t : Item} {us vs : List Item} (h : vs <:+ t :: us) :
    (resumeStatement vs).rest.length < (t :: us).length := by
  have hle := h.length_le
  have hresume := resumeStatement_length_le vs
  rw [List.length_cons] at hle ⊢
  omega

theorem statementsLoop_sound : (statementsLoop env).Sound where
  depth_nonneg _ _ := Int.le_refl 0
  fits := by
    rintro ⟨d, fresh⟩ ts -
    cases ts with
    | nil =>
      have hread : readStatements env d fresh [] = d := by rw [readStatements]
      exact ⟨Int.le_refl 0, List.suffix_refl _, hread⟩
    | cons t us =>
      have hsuf := List.suffix_cons t us
      have hlt : us.length < (t :: us).length := Nat.lt_succ_self _
      have hresume {vs : List Item} (h : vs <:+ t :: us) :
          (resumeStatement vs).rest <:+ t :: us ∧
            (resumeStatement vs).rest.length < (t :: us).length :=
        ⟨(resumeStatement vs).suffix.trans h, resumeStatement_rest_lt h⟩
      have hread := readStatements.eq_def env d fresh (t :: us)
      dsimp only at hread
      show (statementsLoop env).Fits (d, fresh) (t :: us) (statementsRound env (d, fresh) (t :: us))
      rw [statementsRound]
      split
      · next hsep =>
        rw [if_pos hsep] at hread
        exact ⟨trivial, hsuf, hlt, hread⟩
      next hsep =>
      rw [if_neg hsep] at hread
      split
      · next hspace =>
        rw [if_pos hspace] at hread
        split
        · next vs suffix hns =>
          rw [hns] at hread
          exact ⟨trivial, suffix.trans hsuf, Nat.lt_succ_of_le suffix.length_le, hread⟩
        · next vs suffix hns =>
          rw [hns] at hread
          obtain ⟨hrest, hshort⟩ := hresume (suffix.trans hsuf)
          exact ⟨trivial, hrest, hshort, hread⟩
      next hspace =>
      rw [if_neg hspace] at hread
      split
      · next huse =>
        rw [if_pos huse] at hread
        split
        · next vs suffix him =>
          rw [him] at hread
          exact ⟨trivial, suffix.trans hsuf, Nat.lt_succ_of_le suffix.length_le, hread⟩
        · next vs suffix him =>
          rw [him] at hread
          obtain ⟨hrest, hshort⟩ := hresume (suffix.trans hsuf)
          exact ⟨trivial, hrest, hshort, hread⟩
      next huse =>
      rw [if_neg huse] at hread
      split
      · next hclass =>
        rw [if_pos hclass] at hread
        have hadvances := readClass_advances env (t :: us)
        split at hread
        · next c faults vs suffix hc =>
          rw [hc] at hadvances ⊢
          exact ⟨trivial, suffix, hadvances _ rfl, hread⟩
        · next faults vs suffix hc =>
          rw [hc]
          obtain ⟨hrest, hshort⟩ := hresume suffix
          exact ⟨trivial, hrest, hshort, hread⟩
      next hclass =>
      rw [if_neg hclass] at hread
      split
      · next hopen =>
        rw [if_pos hopen] at hread
        split
        · next vs suffix hblock =>
          rw [hblock] at hread
          exact ⟨trivial, suffix.trans hsuf, Nat.lt_succ_of_le suffix.length_le, hread⟩
        · next vs suffix hblock =>
          rw [hblock] at hread
          exact ⟨Int.le_refl 0, suffix.trans hsuf, hread⟩
      next hopen =>
      rw [if_neg hopen] at hread
      split
      · next hclose =>
        rw [if_pos hclose] at hread
        exact ⟨trivial, hsuf, hlt, hread⟩
      · next hclose =>
        rw [if_neg hclose] at hread
        exact ⟨trivial, hsuf, hlt, hread⟩

end Files

/-! ### All loops -/

/-- The loops of the readers. -/
inductive LoopName where
  /-- Over the statements of a file. -/
  | statements
  /-- Looking ahead for a class. -/
  | ahead
  /-- Up to what looks like the next statement. -/
  | toStatement
  /-- Over imports, and over those between braces. -/
  | imports
  | importGroup
  /-- Over names with commas between them. -/
  | names
  /-- Over the modifiers of a class, and of a member. -/
  | classModifiers
  | modifiers
  /-- Over the statements in the body of a class. -/
  | body
  /-- Up to what looks like the next member. -/
  | toMember
  /-- Over what a member is made of. -/
  | adaptations
  | constants
  | properties
  | params
  /-- Over the members of a union, and of an intersection. -/
  | united
  | joined
  /-- Over what is passed over. -/
  | block
  | attributes
  | attributeGroup
  | expression

/-- The loop of that name. -/
def LoopName.loop (env : Env) : LoopName → Loop
  | .statements => statementsLoop env
  | .ahead => aheadLoop
  | .toStatement => .ofReader toStatementRound fun _ => skipToStatement
  | .imports => .ofReader (importsRound env) (readImportList env)
  | .importGroup => .ofReader (importGroupRound env) fun s => readImportGroup env s.1 s.2
  | .names => .ofReader (namesRound env) fun _ => readMoreNames env
  | .classModifiers => .ofReader classModifiersRound readClassModifiers
  | .modifiers => .ofReader (modifiersRound env) (readModifiers env)
  | .body => .ofReader (bodyRound env) (readBody env)
  | .toMember => .ofReader toMemberRound fun _ => skipToMember env
  | .adaptations => .ofReader (adaptationsRound env) fun _ => readAdaptations env
  | .constants => .ofReader (constantsRound env) (readConstantList env)
  | .properties => .ofReader (propertiesRound env) (readPropertyList env)
  | .params => .ofReader (paramsRound env) fun _ => readParamList env
  | .united => .ofReader (unitedRound env) fun _ => readMoreUnited env
  | .joined => .ofReader (joinedRound env) fun _ => readMoreJoined env
  | .block => blockLoop
  | .attributes => .ofReader attributesRound fun _ => skipAttributes
  | .attributeGroup => attributeLoop
  | .expression => expressionLoop

theorem LoopName.loop_sound (env : Env) (name : LoopName) : (name.loop env).Sound := by
  cases name with
  | statements => exact statementsLoop_sound env
  | ahead => exact aheadLoop_sound
  | toStatement => exact toStatementLoop_sound
  | imports => exact importsLoop_sound env
  | importGroup => exact importGroupLoop_sound env
  | names => exact namesLoop_sound env
  | classModifiers => exact classModifiersLoop_sound
  | modifiers => exact modifiersLoop_sound env
  | body => exact bodyLoop_sound env
  | toMember => exact toMemberLoop_sound env
  | adaptations => exact adaptationsLoop_sound env
  | constants => exact constantsLoop_sound env
  | properties => exact propertiesLoop_sound env
  | params => exact paramsLoop_sound env
  | united => exact unitedLoop_sound env
  | joined => exact joinedLoop_sound env
  | block => exact blockLoop_sound
  | attributes => exact attributesLoop_sound
  | attributeGroup => exact attributeLoop_sound
  | expression => exact expressionLoop_sound

/-- **A loop ends** on a stream of tokens, wherever the cursor stands when a round starts. -/
structure Loop.Ends (l : Loop) (tokens : List Token) : Prop where
  /-- A round that leaves the loop has not counted below zero. -/
  exit : ∀ s c ts, l.Valid s → Cursor.Faces tokens c ts → ∀ depth us a,
    l.round s ts = .exit depth us a → 0 ≤ depth ∧ l.answer s ts = a ∧
      ∃ n, (c.forward tokens n).Faces tokens us
  /-- A round that goes on has not counted below zero, and has moved the position forward. -/
  again : ∀ s c ts, l.Valid s → Cursor.Faces tokens c ts → ∀ s' us finish,
    l.round s ts = .again s' us finish → l.Valid s' ∧ 0 ≤ l.depth s' ∧
      l.answer s ts = finish (l.answer s' us) ∧
      ∃ n, (c.forward tokens n).Faces tokens us ∧ c.position < (c.forward tokens n).position
  /-- All rounds together give what the readers give. -/
  runs : ∀ s ts, l.Valid s → ∃ n ≤ ts.length + 1, l.Runs n s ts (l.answer s ts)

theorem Loop.Sound.ends {l : Loop} (h : l.Sound) (tokens : List Token) : l.Ends tokens where
  exit s c ts hs hc depth us a hround := by
    have hfits := h.fits s ts hs
    rw [hround] at hfits
    obtain ⟨hdepth, hus, hanswer⟩ := hfits
    obtain ⟨n, hn, -⟩ := hc.suffix hus
    exact ⟨hdepth, hanswer, n, hn⟩
  again s c ts hs hc s' us finish hround := by
    have hfits := h.fits s ts hs
    rw [hround] at hfits
    obtain ⟨hs', hus, hlt, hanswer⟩ := hfits
    obtain ⟨n, hn, hposition⟩ := hc.suffix hus
    exact ⟨hs', h.depth_nonneg s' hs', hanswer, n, hn, by omega⟩
  runs := h.runs

/-- What `parse` makes of the statements that were read. -/
theorem parse_outcome_of_items {source : List Char} {ts : List Item} {comments : List Comment}
    {eof : Token}
    (h : attachComments [] (Source.tokenize source).tokens = ts ++ [⟨comments, eof⟩]) :
    (parse source).outcome =
      let first := (Env.current ⟨source, eof⟩ ts).span
      let d :=
        readStatements ⟨source, eof⟩ { current := { name := none, span := first } } true ts
      if d.faults.isEmpty then .ok { blocks := d.blocks, span := ⟨first.start, eof.span.stop⟩ }
      else .error d.faults := by
  rw [parse, h, List.dropLast_concat]
  simp only [List.getLast?_append, List.getLast?_singleton, Option.some_or, Option.map_some,
    Option.getD_some]

theorem parse_outcome_eq {source : List Char} {init : List Token} {eof : Token}
    (htokens : (Source.tokenize source).tokens = init ++ [eof])
    (heof : ¬eof.kind.isTrivia = true) :
    ∃ ts, (Cursor.start (init ++ [eof])).Faces (init ++ [eof]) ts ∧
      (parse source).outcome =
        let first := (Env.current ⟨source, eof⟩ ts).span
        let d :=
          readStatements ⟨source, eof⟩ { current := { name := none, span := first } } true ts
        if d.faults.isEmpty then
          .ok { blocks := d.blocks, span := ⟨first.start, eof.span.stop⟩ }
        else .error d.faults := by
  obtain ⟨us, comments, hus⟩ := exists_attachComments_concat [] init heof
  have hfaces := Cursor.faces_start init heof
  rw [hus, List.dropLast_concat] at hfaces
  exact ⟨us, hfaces, parse_outcome_of_items (htokens ▸ hus)⟩

/-- **Reading declarations ends, and never looks beyond the end of the file.**  On every stream of
tokens that ends with the end of the file, all steps of the cursor stay within it, and every loop
of the readers ends: each of its rounds leaves the loop or moves the position forward, and no count
of brackets goes below zero.  Reading a text runs the loop over statements on such a stream. -/
theorem readers_end (source : List Char) :
    (∀ (init : List Token) (eof : Token), eof.kind = .eof →
      (∃ ts, (Cursor.start (init ++ [eof])).Faces (init ++ [eof]) ts) ∧
      (∀ c ts, Cursor.Faces (init ++ [eof]) c ts →
        c.position ≤ init.length ∧
        (init ++ [eof])[c.position]? = some (Env.current ⟨source, eof⟩ ts) ∧
        (c.advance (init ++ [eof])).Faces (init ++ [eof]) ts.tail) ∧
      ∀ name : LoopName, (name.loop ⟨source, eof⟩).Ends (init ++ [eof])) ∧
    ∃ init eof, (Source.tokenize source).tokens = init ++ [eof] ∧ eof.kind = .eof ∧
      ∃ ts n d, (Cursor.start (init ++ [eof])).Faces (init ++ [eof]) ts ∧
      n ≤ ts.length + 1 ∧
        (LoopName.statements.loop ⟨source, eof⟩).Runs n
          ({ current := { name := none, span := (Env.current ⟨source, eof⟩ ts).span } }, true)
            ts d ∧
        (parse source).outcome =
          if d.faults.isEmpty then
            .ok { blocks := d.blocks
                  span := ⟨(Env.current ⟨source, eof⟩ ts).span.start, eof.span.stop⟩ }
          else .error d.faults := by
  have hsignificant {eof : Token} (h : eof.kind = .eof) : ¬eof.kind.isTrivia = true := by
    rw [h]
    exact Bool.false_ne_true
  refine ⟨fun init eof heof => ⟨⟨_, Cursor.faces_start init (hsignificant heof)⟩, ?_, ?_⟩,
    ?_⟩
  · intro c ts hc
    exact ⟨hc.position_le, hc.current source (hsignificant heof),
      hc.advance_tail (hsignificant heof)⟩
  · exact fun name => (name.loop_sound ⟨source, eof⟩).ends _
  · obtain ⟨init, htokens, -⟩ := Source.tokens_eof source
    refine ⟨init, _, htokens, rfl, ?_⟩
    obtain ⟨ts, hfaces, houtcome⟩ := parse_outcome_eq htokens (hsignificant rfl)
    obtain ⟨n, hn, hruns⟩ := (LoopName.loop_sound _ .statements).runs (_, true) ts trivial
    exact ⟨ts, n, _, hfaces, hn, hruns, houtcome⟩

end PhpHandbook.Declaration
