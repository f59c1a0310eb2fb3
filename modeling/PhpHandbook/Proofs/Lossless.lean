import PhpHandbook.Source.Lexer

/-!
# Tokens lose nothing of a text

The walk over a text moves in different ways: outside the tags it jumps to the next opening, inside
it passes over white space, takes the longest token there is, reads a heredoc line by line, gives a
character that starts no token a token of its own, and swallows a newline behind a closing tag.
What all of these have in common is said once, in `Step`: which texts belong to the token and to
what is passed over, and in which mode the walk goes on.  `piece_fits` shows that each step is one
of these, `walk_cases` takes the walk apart at any of its tokens, and everything else about the
tokens of a text is read off from the step that made them.

## Main definitions

* `StartsOpenTag`: an opening tag starts here.
* `Step`: what one step of the walk does.
* `Mode.afterAll`: the mode that tokens lead to.
* `Lossless`: nothing of a text is lost in its tokens.

## Main statements

* `piece_fits`: every piece is a step.
* `walk_cases`: a token of the walk, the step it comes from, and the walk behind it.
* `tokenize_lossless`: every text is read without loss.
-/

namespace PhpHandbook.Source

/-! ### Opening tags -/

/-- **An opening tag starts here**: `<?=`, or `<?php` in capital or small letters with a blank
character or the end of the file behind it. -/
inductive StartsOpenTag : List Char → Prop where
  | echo (rest : List Char) : StartsOpenTag ('<' :: '?' :: '=' :: rest)
  | word {p h q : Char} {rest : List Char} (hword : [p, h, q].map Char.toLower = ['p', 'h', 'p'])
      (hbehind : ∀ c ∈ rest.head?, Text.isBlank c) :
        StartsOpenTag ('<' :: '?' :: p :: h :: q :: rest)

theorem openTagLength?_eq_none {cs : List Char} (h : openTagLength? cs = none) :
    ¬StartsOpenTag cs := by
  rw [openTagLength?.eq_def] at h
  split at h
  · cases h
  · next p i q rest hmark =>
    rintro (_ | @⟨p, i, q, rest, hword, hbehind⟩)
    · exact hmark rfl
    · simp only [List.map_cons, List.map_nil, List.cons.injEq, and_true] at hword
      obtain ⟨hp, hi, hq⟩ := hword
      rw [if_pos (by simp [hp, hi, hq])] at h
      split at h
      · cases h
      · next c rest =>
        rw [if_pos (hbehind c rfl)] at h
        cases h
  · next hequals hword =>
    rintro (_ | _)
    · exact hequals _ rfl
    · exact hword _ _ _ _ rfl

theorem StartsOpenTag.head {cs : List Char} (h : StartsOpenTag cs) :
    ∃ rest, cs = '<' :: '?' :: rest := by
  cases h with
  | echo rest => exact ⟨_, rfl⟩
  | word => exact ⟨_, rfl⟩

theorem htmlRun_eq (seen : Nat) (cs : List Char) : htmlRun seen cs = seen + htmlRun 0 cs := by
  induction cs generalizing seen with
  | nil => rfl
  | cons c cs ih =>
    unfold htmlRun
    split
    · rfl
    · next hcons => cases hcons
    · next hcons =>
      cases hcons
      rw [ih (seen + 1), ih 1, Nat.add_assoc]

/-- Nothing in front of the next `<?` starts an opening tag. -/
theorem not_startsOpenTag_of_lt_htmlRun {cs : List Char} {k : Nat} (h : k < htmlRun 0 cs) :
    ¬StartsOpenTag (cs.drop k) := by
  induction cs generalizing k with
  | nil => exact absurd h (Nat.not_lt_zero k)
  | cons c cs ih =>
    unfold htmlRun at h
    split at h
    · exact absurd h (Nat.not_lt_zero k)
    · next hcons => cases hcons
    · next hne hcons =>
      cases hcons
      cases k with
      | zero =>
        intro htag
        obtain ⟨rest, hrest⟩ := htag.head
        cases hrest
        exact hne rest rfl rfl
      | succ k =>
        rw [htmlRun_eq] at h
        exact ih (by omega)

/-! ### Kinds of tokens -/

namespace TokenKind

/-- Kinds that the longest token at a place can have.  The others come about in other ways: heredocs
are read to their end, tags and text outside of them have rules of their own, and the end of the
file and characters that start no token are no tokens of the language. -/
def isScanned : TokenKind → Bool
  | .heredoc | .openTag | .inlineHtml | .eof | .error => false
  | _ => true

theorem ne_of_isScanned {kind : TokenKind} (h : kind.isScanned) :
    kind ≠ .eof ∧ kind ≠ .openTag ∧ kind ≠ .inlineHtml ∧ kind ≠ .error := by
  refine ⟨?_, ?_, ?_, ?_⟩
  all_goals
    rintro rfl
    cases h

end TokenKind

theorem operatorToken_isScanned (c : Char) (cs : List Char) : (operatorToken c cs).1.isScanned := by
  unfold operatorToken operatorMark?
  simp only
  split <;> rfl

theorem munchSlash_isScanned {cs : List Char} {kind : TokenKind} {n : Nat}
    (h : munchSlash cs = .token kind n) : kind.isScanned := by
  have hop := operatorToken_isScanned '/' cs
  unfold munchSlash at h
  split at h
  · cases h; rfl
  · simp only at h
    split at h
    · split at h <;> cases h
      · exact hop
      · rfl
    · split at h <;> cases h
      exact hop
  · cases h
    exact hop

theorem munchAngle_isScanned {cs : List Char} {kind : TokenKind} {n : Nat}
    (h : munchAngle cs = .token kind n) : kind.isScanned := by
  have hop := operatorToken_isScanned '<' cs
  unfold munchAngle at h
  simp only at h
  split at h
  · split at h
    · split at h <;> cases h
      exact hop
    · cases h
      exact hop
  · cases h
    exact hop

theorem munchWord_isScanned {c : Char} {cs : List Char} {kind : TokenKind} {n : Nat}
    (h : munchWord c cs = .token kind n) : kind.isScanned := by
  unfold munchWord at h
  simp only at h
  split at h
  · cases h; rfl
  · split at h
    · cases h; rfl
    · split at h <;> cases h <;> rfl

theorem munch_isScanned {c : Char} {cs : List Char} {kind : TokenKind} {n : Nat}
    (h : munch c cs = .token kind n) : kind.isScanned := by
  unfold munch at h
  split at h
  · exact munchWord_isScanned h
  · split at h
    · cases h; rfl
    · split at h
      case h_14 => exact munchSlash_isScanned h
      case h_15 => exact munchAngle_isScanned h
      case h_19 =>
        split at h
        · have hop := operatorToken_isScanned c cs
          cases h
          exact hop
        · cases h
      all_goals
        (try simp only at h)
        repeat' split at h
        all_goals cases h <;> rfl

/-! ### One step -/

/-- The mode behind a token: opening and closing tags change it. -/
def Mode.after (mode : Mode) : TokenKind → Mode
  | .openTag => .php
  | .closeTag => .html
  | _ => mode

theorem Mode.after_of_not_tag {mode : Mode} {kind : TokenKind} (hopen : kind ≠ .openTag)
    (hclose : kind ≠ .closeTag) : mode.after kind = mode := by
  unfold Mode.after
  split
  · exact absurd rfl hopen
  · exact absurd rfl hclose
  · rfl

/-- **What one step of the walk does.**  From a place in `mode` it makes a token of a kind and a
text, passes over `skipped`, and goes on in front of `rest`. -/
structure Step (mode : Mode) (kind : TokenKind) (lexeme skipped rest : List Char)
    (fault : Option LexFault) (mode' : Mode) : Prop where
  nonempty : lexeme ≠ []
  kind_ne_eof : kind ≠ .eof
  mode_eq : mode' = mode.after kind
  /-- Tags that open and text outside the tags belong to one mode, all other tokens to the other. -/
  html_iff : mode = .html ↔ kind = .openTag ∨ kind = .inlineHtml
  skipped_eq : skipped = [] ∨ kind = .closeTag ∧ skipped = ['\n']
  noOpenTag : kind = .inlineHtml → ∀ k < lexeme.length,
    ¬StartsOpenTag ((lexeme ++ skipped ++ rest).drop k)
  error_iff : kind = .error ↔ fault = some .unexpectedChar
  /-- A heredoc without an end reaches to the end of the text. -/
  unterminated : ∀ label, fault = some (.unterminatedHeredoc label) →
    kind = .heredoc ∧ skipped = [] ∧ rest = []

/-- The step that a piece stands for, at the character `c` with `cs` behind it. -/
def Piece.Fits (p : Piece) (mode : Mode) (c : Char) (cs : List Char) : Prop :=
  Step mode p.kind (c :: cs.take p.tail) ((cs.drop p.tail).take p.skipped)
    (cs.drop (p.tail + p.skipped)) p.fault p.mode

theorem take_append_drop_append_drop (cs : List Char) (m n : Nat) :
    cs.take m ++ (cs.drop m).take n ++ cs.drop (m + n) = cs := by
  rw [List.append_assoc, ← List.drop_drop, List.take_append_drop, List.take_append_drop]

theorem htmlPiece_fits (c : Char) (cs : List Char) : (htmlPiece c cs).Fits .html c cs := by
  unfold htmlPiece
  split
  · exact ⟨List.cons_ne_nil _ _, nofun, rfl, by simp, .inl (by simp), nofun, by simp, nofun⟩
  · next hnone =>
    have hwhole := openTagLength?_eq_none hnone
    split
    · next hlone =>
      refine ⟨List.cons_ne_nil _ _, nofun, rfl,
        by simp, .inl (by simp), fun _ k hk => ?_, by simp, nofun⟩
      rw [List.cons_append, List.cons_append, take_append_drop_append_drop]
      simp only [List.length_cons, List.length_take] at hk
      simp only [Bool.and_eq_true, beq_iff_eq] at hlone
      obtain ⟨rest, rfl⟩ : ∃ rest, cs = '?' :: rest := List.head?_eq_some_iff.1 hlone.2
      cases k with
      | zero => exact hwhole
      | succ k =>
        -- the second character is the question mark
        obtain rfl : k = 0 := by omega
        intro htag
        obtain ⟨more, hmore⟩ := htag.head
        cases hmore
    · refine ⟨List.cons_ne_nil _ _, nofun, rfl,
        by simp, .inl (by simp), fun _ k hk => ?_, by simp, nofun⟩
      rw [List.cons_append, List.cons_append, take_append_drop_append_drop]
      cases k with
      | zero => exact hwhole
      | succ k =>
        rw [List.drop_succ_cons]
        refine not_startsOpenTag_of_lt_htmlRun ?_
        simp only [List.length_cons, List.length_take] at hk
        omega

theorem phpPiece_fits (c : Char) (cs : List Char) : (phpPiece c cs).Fits .php c cs := by
  unfold phpPiece
  split
  · next n hmunch =>
    refine ⟨List.cons_ne_nil _ _, nofun, rfl, by simp, ?_, nofun, by simp, nofun⟩
    dsimp only
    split
    · next hnewline =>
      rw [beq_iff_eq, List.head?_eq_some_iff] at hnewline
      obtain ⟨rest, hrest⟩ := hnewline
      exact .inr ⟨rfl, by rw [hrest]; rfl⟩
    · exact .inl rfl
  · next kind n hclose hmunch =>
    obtain ⟨heof, hopen, hhtml, herror⟩ := TokenKind.ne_of_isScanned (munch_isScanned hmunch)
    have hne : kind ≠ .closeTag := hclose
    refine ⟨List.cons_ne_nil _ _, ?_, ?_, ?_, .inl (by simp), ?_, ?_, nofun⟩
    · exact heof
    · exact (Mode.after_of_not_tag hopen hne).symm
    · simp [hopen, hhtml]
    · exact fun h => absurd h hhtml
    · simp [herror]
  · next label n hmunch =>
    split
    · exact ⟨List.cons_ne_nil _ _, nofun, rfl, by simp, .inl (by simp), nofun, by simp, nofun⟩
    · exact ⟨List.cons_ne_nil _ _, nofun, rfl, by simp, .inl (by simp), nofun, by simp,
        fun _ _ => ⟨rfl, by simp, by simp⟩⟩
  · exact ⟨List.cons_ne_nil _ _, nofun, rfl, by simp, .inl (by simp), nofun, by simp, nofun⟩

theorem piece_fits (mode : Mode) (c : Char) (cs : List Char) :
    (piece mode c cs).Fits mode c cs := by
  cases mode with
  | html => exact htmlPiece_fits c cs
  | php => exact phpPiece_fits c cs

/-! ### The walk -/

/-- The token with the given text that starts at an offset. -/
def tokenAt (kind : TokenKind) (offset : Nat) (lexeme : List Char) : Token :=
  ⟨kind, ⟨offset, offset + byteLength lexeme⟩, String.ofList lexeme⟩

/-- **What the walk begins with**: a gap, which is empty outside the tags, and then either the end
of the text or a token, behind which the walk goes on. -/
theorem walk_eq_cons {mode : Mode} {offset : Nat} {cs : List Char}
    {item : Token × Option LexFault} {items : List (Token × Option LexFault)}
    (h : walk mode offset cs = item :: items) :
    ∃ gap rest, cs = gap ++ rest ∧ (∀ c ∈ gap, isGap c) ∧ (mode = .html → gap = []) ∧
      ((rest = [] ∧ item = (tokenAt .eof (offset + byteLength gap) [], none) ∧ items = []) ∨
        ∃ kind lexeme skipped more fault mode', Step mode kind lexeme skipped more fault mode' ∧
          rest = lexeme ++ skipped ++ more ∧
          item = (tokenAt kind (offset + byteLength gap) lexeme, fault) ∧
          items = walk mode' (offset + byteLength (gap ++ lexeme ++ skipped)) more) := by
  induction mode, offset, cs using walk.induct with
  | case1 mode offset =>
    rw [walk] at h
    cases h
    exact ⟨[], [], rfl, nofun, fun _ => rfl, .inl ⟨rfl, rfl, rfl⟩⟩
  | case2 mode offset c cs hgap ih =>
    rw [walk, if_pos hgap] at h
    obtain ⟨gap, rest, rfl, hgaps, -, hitem⟩ := ih h
    refine ⟨c :: gap, rest, rfl, ?_, ?_, ?_⟩
    · rintro d (_ | ⟨_, hd⟩)
      · exact hgap.2
      · exact hgaps d hd
    · intro hmode
      exact absurd (hmode.symm.trans hgap.1) nofun
    · simpa only [List.cons_append, byteLength, Nat.add_assoc] using hitem
  | case3 mode offset c cs hgap p lexeme stop skipped ih =>
    rw [walk, if_neg hgap] at h
    refine ⟨[], c :: cs, rfl, nofun, fun _ => rfl, .inr ?_⟩
    cases h
    refine ⟨_, _, _, _, _, _, piece_fits mode c cs, ?_, rfl, ?_⟩
    · rw [List.cons_append, List.cons_append, take_append_drop_append_drop]
    · rw [List.nil_append, byteLength_append, Nat.add_assoc]

theorem walk_ne_nil (mode : Mode) (offset : Nat) (cs : List Char) : walk mode offset cs ≠ [] := by
  induction mode, offset, cs using walk.induct with
  | case1 mode offset =>
    rw [walk]
    exact List.cons_ne_nil _ _
  | case2 mode offset c cs hgap ih => rwa [walk, if_pos hgap]
  | case3 mode offset c cs hgap =>
    rw [walk, if_neg hgap]
    exact List.cons_ne_nil _ _

/-- Inside the tags the walk passes over a gap. -/
theorem walk_gap {gap : List Char} (hgap : ∀ c ∈ gap, isGap c) (offset : Nat)
    (rest : List Char) :
    walk .php offset (gap ++ rest) = walk .php (offset + byteLength gap) rest := by
  induction gap generalizing offset with
  | nil => rfl
  | cons c gap ih =>
    have hc : Mode.php = Mode.php ∧ isGap c := ⟨rfl, hgap c List.mem_cons_self⟩
    rw [List.cons_append, walk, if_pos hc, ih fun d hd => hgap d (List.mem_cons_of_mem c hd),
      byteLength, Nat.add_assoc]

/-- The mode that tokens lead to. -/
def Mode.afterAll (mode : Mode) (tokens : List Token) : Mode :=
  tokens.foldl (fun mode t => mode.after t.kind) mode

/-- **The walk can be taken up at every token**, in the mode that the tokens in front of it lead
to. -/
theorem exists_walk_of_append {mode : Mode} {offset : Nat} {cs : List Char}
    {items items' : List (Token × Option LexFault)} (h : walk mode offset cs = items ++ items')
    (hne : items' ≠ []) :
    ∃ before rest, cs = before ++ rest ∧
      items' = walk (mode.afterAll (items.map (·.1))) (offset + byteLength before) rest := by
  induction items generalizing mode offset cs with
  | nil => exact ⟨[], cs, rfl, h.symm⟩
  | cons item items ih =>
    obtain ⟨gap, rest, rfl, -, -, hitem⟩ := walk_eq_cons h
    rcases hitem with ⟨-, -, hnil⟩ |
      ⟨kind, lexeme, skipped, more, fault, mode', hstep, rfl, rfl, hmore⟩
    · exact absurd (List.append_eq_nil_iff.1 hnil).2 hne
    · obtain ⟨before, rest, rfl, hrest⟩ := ih hmore.symm
      refine ⟨gap ++ lexeme ++ skipped ++ before, rest, by simp only [List.append_assoc], ?_⟩
      rw [hrest, hstep.mode_eq, Nat.add_assoc, ← byteLength_append]
      rfl

/-- **A token of the walk and what is behind it.**  Either it is the end of the file and nothing is
behind it, or it comes from a step in the mode that the tokens in front of it lead to. -/
theorem walk_cases {mode : Mode} {offset : Nat} {cs : List Char} {item : Token × Option LexFault}
    {items items' : List (Token × Option LexFault)}
    (h : walk mode offset cs = items ++ item :: items') :
    (item = (tokenAt .eof (offset + byteLength cs) [], none) ∧ items' = []) ∨
      ∃ front kind lexeme skipped rest fault mode',
        Step (mode.afterAll (items.map (·.1))) kind lexeme skipped rest fault mode' ∧
        cs = front ++ (lexeme ++ skipped ++ rest) ∧
        item = (tokenAt kind (offset + byteLength front) lexeme, fault) ∧
        items' = walk mode' (offset + byteLength (front ++ lexeme ++ skipped)) rest := by
  obtain ⟨front, rest, rfl, hrest⟩ := exists_walk_of_append h (List.cons_ne_nil _ _)
  obtain ⟨gap, rest, rfl, -, -, hitem⟩ := walk_eq_cons hrest.symm
  rcases hitem with ⟨rfl, rfl, rfl⟩ |
    ⟨kind, lexeme, skipped, more, fault, mode', hstep, rfl, rfl, rfl⟩
  · left
    rw [List.append_nil, byteLength_append, Nat.add_assoc]
    exact ⟨rfl, rfl⟩
  · right
    refine ⟨front ++ gap, kind, lexeme, skipped, more, fault, mode', hstep, ?_, ?_, ?_⟩
    · rw [List.append_assoc front]
    · rw [byteLength_append, Nat.add_assoc]
    · rw [List.append_assoc front, List.append_assoc front, byteLength_append front, Nat.add_assoc]

/-- Where a token of the walk stands. -/
theorem exists_append_of_mem_walk {mode : Mode} {offset : Nat} {cs : List Char}
    {item : Token × Option LexFault} (h : item ∈ walk mode offset cs) :
    ∃ before lexeme after, cs = before ++ lexeme ++ after ∧
      item.1 = tokenAt item.1.kind (offset + byteLength before) lexeme := by
  obtain ⟨items, items', hsplit⟩ := List.append_of_mem h
  rcases walk_cases hsplit with ⟨rfl, -⟩
    | ⟨front, kind, lexeme, skipped, rest, fault, mode', -, rfl, rfl, -⟩
  · exact ⟨cs, [], [], by simp, rfl⟩
  · exact ⟨front, lexeme, skipped ++ rest, by simp only [List.append_assoc], rfl⟩

theorem le_start_of_mem_walk {mode : Mode} {offset : Nat} {cs : List Char}
    {item : Token × Option LexFault} (h : item ∈ walk mode offset cs) :
    offset ≤ item.1.span.start := by
  obtain ⟨before, lexeme, after, -, hitem⟩ := exists_append_of_mem_walk h
  rw [hitem]
  exact Nat.le_add_right _ _

/-! ### All tokens of a text -/

/-- What may lie between a token and the next one, where the token leads to a mode. -/
def GapFits (mode : Mode) (kind : TokenKind) (gap : List Char) : Prop :=
  if kind = .closeTag then gap = [] ∨ gap = ['\n']
  else
    match mode with
    | .html => gap = []
    | .php => ∀ c ∈ gap, c ∈ [' ', '\t', '\r', '\n', '\x0c']

/-- Whether the fault is that of a heredoc without an end. -/
def LexFault.isUnterminated : LexFault → Bool
  | .unterminatedHeredoc _ => true
  | .unexpectedChar => false

theorem LexFault.exists_label {fault : LexFault} (h : fault.isUnterminated) :
    ∃ label, fault = .unterminatedHeredoc label := by
  cases fault with
  | unexpectedChar => cases h
  | unterminatedHeredoc label => exact ⟨label, rfl⟩

/-- **Nothing of a text is lost** in its tokens. -/
structure Lossless (text : List Char) (lexed : Lexed) : Prop where
  /-- The end of the file is the last token, and only the last one. -/
  eof : ∃ before, lexed.tokens = before
    ++ [⟨.eof, ⟨byteLength text, byteLength text⟩, ""⟩] ∧
    ∀ t ∈ before, t.kind ≠ .eof
  /-- The first token starts with the text. -/
  start : ∀ t ∈ lexed.tokens.head?, t.span.start = 0
  /-- Tokens come in order and do not overlap. -/
  ordered : ∀ before t after, lexed.tokens = before ++ t :: after →
    ∀ u ∈ after, t.span.stop ≤ u.span.start
  /-- Only the end of the file is empty. -/
  nonempty : ∀ t ∈ lexed.tokens, t.kind ≠ .eof → t.span.start < t.span.stop
  /-- Tokens start and stop between characters, and have the text that stands there. -/
  covers : ∀ t ∈ lexed.tokens, (∃ before after, text = before ++ t.lexeme.toList ++ after ∧
      t.span = ⟨byteLength before, byteLength (before ++ t.lexeme.toList)⟩) ∧
    t.span.slice text = t.lexeme
  /-- What lies between two tokens is nothing outside the tags, at most a newline behind a closing
  tag, and blanks otherwise. -/
  gaps : ∀ before t u after, lexed.tokens = before ++ t :: u :: after →
    GapFits (Mode.html.afterAll (before ++ [t])) t.kind
      (Span.chars ⟨t.span.stop, u.span.start⟩ text)
  /-- Tags that open and text outside the tags stand outside the tags, and nothing else does. -/
  modes : ∀ before t after, lexed.tokens = before ++ t :: after → t.kind ≠ .eof →
    (t.kind = .openTag ∨ t.kind = .inlineHtml ↔ Mode.html.afterAll before = .html)
  /-- No opening tag starts within the text outside the tags. -/
  noOpenTag : ∀ t ∈ lexed.tokens, t.kind = .inlineHtml →
    ∀ before after, text = before ++ after →
    t.span.start ≤ byteLength before → byteLength before < t.span.stop → ¬StartsOpenTag after
  /-- Each character that starts no token is a token of its own with a fault beside it. -/
  errors : (lexed.tokens.filter (·.kind == .error)).map (·.span)
    = (lexed.errors.filter (·.fault == .unexpectedChar)).map (·.span)
  /-- At most one heredoc has no end. -/
  unterminated_le : (lexed.errors.filter (·.fault.isUnterminated)).length ≤ 1
  /-- A heredoc without an end is the last token of the text. -/
  unterminated_last : ∀ e ∈ lexed.errors, e.fault.isUnterminated → ∃ before t last,
    lexed.tokens = before ++ [t, last] ∧ t.kind = .heredoc ∧ t.span = e.span ∧
    last.kind = .eof

/-- A place in the tokens of a text is a place in the walk over it. -/
theorem exists_walk_of_tokens {text : List Char} {before after : List Token} {t : Token}
    (h : (tokenize text).tokens = before ++ t :: after) :
    ∃ items fault items', walk .html 0 text = items ++ (t, fault) :: items' ∧
      items.map (·.1) = before ∧ items'.map (·.1) = after := by
  obtain ⟨items, rest, hsplit, hbefore, hrest⟩ := List.map_eq_append_iff.1 h
  obtain ⟨⟨u, fault⟩, items', rfl, rfl, hafter⟩ := List.map_eq_cons_iff.1 hrest
  exact ⟨items, fault, items', hsplit, hbefore, hafter⟩

/-- A token of a text and what is behind it, as in the walk. -/
theorem token_cases {text : List Char} {before after : List Token} {t : Token}
    (h : (tokenize text).tokens = before ++ t :: after) :
    (t = tokenAt .eof (byteLength text) [] ∧ after = []) ∨
      ∃ front kind lexeme skipped rest fault mode',
        Step (Mode.html.afterAll before) kind lexeme skipped rest fault mode' ∧
        text = front ++ (lexeme ++ skipped ++ rest) ∧
        t = tokenAt kind (byteLength front) lexeme ∧
        after = (walk mode' (byteLength (front ++ lexeme ++ skipped)) rest).map (·.1) := by
  obtain ⟨items, fault, items', hwalk, rfl, rfl⟩ := exists_walk_of_tokens h
  rcases walk_cases hwalk with ⟨ht, rfl⟩
    | ⟨front, kind, lexeme, skipped, rest, fault, mode', hstep, rfl, ht, rfl⟩
  · cases ht
    rw [Nat.zero_add]
    exact .inl ⟨rfl, rfl⟩
  · cases ht
    rw [Nat.zero_add, Nat.zero_add]
    exact .inr ⟨front, kind, lexeme, skipped, rest, _, mode', hstep, rfl, rfl, rfl⟩

theorem tokens_eof (text : List Char) :
    ∃ before : List Token,
      (tokenize text).tokens = before
        ++ [⟨.eof, ⟨byteLength text, byteLength text⟩, ""⟩] ∧
        ∀ t ∈ before, t.kind ≠ .eof := by
  have hne : (tokenize text).tokens ≠ [] :=
    fun h => walk_ne_nil .html 0 text (List.map_eq_nil_iff.1 h)
  obtain ⟨before, last, hsplit⟩ : ∃ before last, (tokenize text).tokens = before ++ [last] :=
    ⟨_, _, (List.dropLast_concat_getLast hne).symm⟩
  refine ⟨before, ?_, ?_⟩
  · rcases token_cases hsplit with ⟨rfl, -⟩
      | ⟨front, kind, lexeme, skipped, rest, fault, mode', -, -, -, hnil⟩
    · exact hsplit
    · exact absurd (List.map_eq_nil_iff.1 hnil.symm) (walk_ne_nil _ _ _)
  · intro t ht
    obtain ⟨front, back, rfl⟩ := List.append_of_mem ht
    rw [List.append_assoc, List.cons_append] at hsplit
    rcases token_cases hsplit with ⟨-, hnil⟩ | ⟨_, kind, _, _, _, _, _, hstep, -, rfl, -⟩
    · exact absurd hnil (by simp)
    · exact hstep.kind_ne_eof

theorem tokens_ordered {text : List Char} {before after : List Token} {t u : Token}
    (h : (tokenize text).tokens = before ++ t :: after) (hu : u ∈ after) :
    t.span.stop ≤ u.span.start := by
  rcases token_cases h with ⟨-, rfl⟩ |
    ⟨front, kind, lexeme, skipped, rest, fault, mode', -, -, rfl, rfl⟩
  · cases hu
  · obtain ⟨item, hitem, rfl⟩ := List.mem_map.1 hu
    have hle := le_start_of_mem_walk hitem
    rw [byteLength_append, byteLength_append] at hle
    exact Nat.le_trans (Nat.le_add_right _ _) hle

/-- The first token starts where the text does: there is no gap in front of it. -/
theorem tokens_start {text : List Char} {t : Token} {after : List Token}
    (h : (tokenize text).tokens = t :: after) : t.span.start = 0 := by
  obtain ⟨items, fault, items', hwalk, hitems, -⟩ := @exists_walk_of_tokens text [] after t h
  obtain rfl := List.map_eq_nil_iff.1 hitems
  obtain ⟨gap, rest, -, -, hgap, hitem⟩ := walk_eq_cons hwalk
  obtain rfl := hgap rfl
  rcases hitem with ⟨-, hitem, -⟩ |
    ⟨kind, lexeme, skipped, more, fault, mode', -, -, hitem, -⟩
  · rw [(Prod.mk.inj hitem).1]
    rfl
  · rw [(Prod.mk.inj hitem).1]
    rfl

theorem tokens_nonempty {text : List Char} {t : Token} (h : t ∈ (tokenize text).tokens)
    (hkind : t.kind ≠ .eof) : t.span.start < t.span.stop := by
  obtain ⟨before, after, hsplit⟩ := List.append_of_mem h
  rcases token_cases hsplit with ⟨rfl, -⟩
    | ⟨front, kind, lexeme, skipped, rest, fault, mode', hstep, -, rfl, -⟩
  · exact absurd rfl hkind
  · exact Nat.lt_add_of_pos_right (byteLength_pos hstep.nonempty)

/-- Where a token of a text stands. -/
theorem tokens_covers {text : List Char} {t : Token} (h : t ∈ (tokenize text).tokens) :
    ∃ before after, text = before ++ t.lexeme.toList ++ after ∧
      t.span = ⟨byteLength before, byteLength before + byteLength t.lexeme.toList⟩ := by
  obtain ⟨item, hitem, rfl⟩ := List.mem_map.1 h
  obtain ⟨before, lexeme, after, rfl, htoken⟩ := exists_append_of_mem_walk hitem
  refine ⟨before, after, ?_, ?_⟩
  · rw [htoken, tokenAt, String.toList_ofList]
  · rw [htoken, tokenAt, String.toList_ofList, Nat.zero_add]

theorem gapFits_closeTag {mode : Mode} {gap : List Char} (h : gap = [] ∨ gap = ['\n']) :
    GapFits mode .closeTag gap := by
  rw [GapFits.eq_def, if_pos rfl]
  exact h

theorem gapFits_of_isGap {kind : TokenKind} {gap : List Char} (hkind : kind ≠ .closeTag)
    (hgap : ∀ c ∈ gap, isGap c) : GapFits .php kind gap := by
  rw [GapFits, if_neg hkind]
  intro c hc
  simpa [isGap, or_assoc] using hgap c hc

theorem tokens_gaps {text : List Char} {before after : List Token} {t u : Token}
    (h : (tokenize text).tokens = before ++ t :: u :: after) :
    GapFits (Mode.html.afterAll (before ++ [t])) t.kind
      (Span.chars ⟨t.span.stop, u.span.start⟩ text) := by
  rcases token_cases h with ⟨-, hnil⟩
    | ⟨front, kind, lexeme, skipped, rest, fault, mode', hstep, rfl, rfl, hu⟩
  · cases hnil
  · obtain ⟨⟨u, fault'⟩, items, hwalk, rfl, -⟩ := List.map_eq_cons_iff.1 hu.symm
    obtain ⟨gap, more, rfl, hgap, hhtml, hitem⟩ := walk_eq_cons hwalk
    have hstart : u.span.start = byteLength (front ++ lexeme ++ skipped) + byteLength gap := by
      rcases hitem with ⟨-, hitem, -⟩ | ⟨_, _, _, _, _, _, -, -, hitem, -⟩
      · rw [(Prod.mk.inj hitem).1]
        rfl
      · rw [(Prod.mk.inj hitem).1]
        rfl
    -- what lies between the two is what the step passes over, and the gap behind it
    have hbetween : Span.chars ⟨byteLength front + byteLength lexeme, u.span.start⟩
        (front ++ (lexeme ++ skipped ++ (gap ++ more))) = skipped ++ gap := by
      have hcut := Span.chars_append (front ++ lexeme) (skipped ++ gap) more
      rw [byteLength_append, byteLength_append] at hcut
      rw [hstart, byteLength_append, byteLength_append, Nat.add_assoc (_ + _)]
      simpa only [List.append_assoc] using hcut
    have hmode :
        Mode.html.afterAll (before ++ [tokenAt kind (byteLength front) lexeme]) = mode' := by
      rw [Mode.afterAll, List.foldl_append, hstep.mode_eq]
      rfl
    show GapFits _ kind (Span.chars ⟨byteLength front + byteLength lexeme, u.span.start⟩ _)
    rw [hbetween, hmode]
    by_cases hclose : kind = .closeTag
    · subst hclose
      rw [hhtml hstep.mode_eq, List.append_nil]
      exact gapFits_closeTag (hstep.skipped_eq.imp_right (·.2))
    · have hskipped : skipped = [] := hstep.skipped_eq.resolve_right fun h => hclose h.1
      rw [hskipped, List.nil_append]
      cases mode' with
      | html => rw [hhtml rfl, GapFits, if_neg hclose]
      | php => exact gapFits_of_isGap hclose hgap

theorem tokens_noOpenTag {text before after : List Char} {t : Token}
    (h : t ∈ (tokenize text).tokens) (hkind : t.kind = .inlineHtml)
    (htext : text = before ++ after) (hstart : t.span.start ≤ byteLength before)
    (hstop : byteLength before < t.span.stop) :
    ¬StartsOpenTag after := by
  obtain ⟨front, back, hsplit⟩ := List.append_of_mem h
  rcases token_cases hsplit with ⟨rfl, -⟩
    | ⟨front, kind, lexeme, skipped, rest, fault, mode', hstep, rfl, rfl, -⟩
  · cases hkind
  · obtain ⟨within, rfl, hrest⟩ := exists_append_of_byteLength_le htext hstart
    rw [byteLength_append] at hstop
    have hle : byteLength within ≤ byteLength lexeme := by
      have : byteLength front + byteLength within < byteLength front + byteLength lexeme := hstop
      omega
    rw [List.append_assoc] at hrest
    obtain ⟨more, rfl, rfl⟩ := exists_append_of_byteLength_le hrest.symm hle
    have hmore : more ≠ [] := by
      rintro rfl
      simp [tokenAt] at hstop
    have hlength : within.length < (within ++ more).length := by
      have := List.length_pos_iff.2 hmore
      rw [List.length_append]
      omega
    have := hstep.noOpenTag hkind within.length hlength
    simpa [List.append_assoc] using this

theorem error_iff_of_mem_walk {mode : Mode} {offset : Nat} {cs : List Char}
    {item : Token × Option LexFault} (h : item ∈ walk mode offset cs) :
    item.1.kind = .error ↔ item.2 = some .unexpectedChar := by
  obtain ⟨items, items', hsplit⟩ := List.append_of_mem h
  rcases walk_cases hsplit with ⟨rfl, -⟩ | ⟨_, kind, _, _, _, fault, _, hstep, -, rfl, -⟩
  · exact ⟨nofun, nofun⟩
  · exact hstep.error_iff

theorem tokens_errors (text : List Char) :
    ((tokenize text).tokens.filter (·.kind == .error)).map (·.span)
      = ((tokenize text).errors.filter (·.fault == .unexpectedChar)).map (·.span) := by
  have herror : ∀ item ∈ walk .html 0 text,
      item.1.kind = .error ↔ item.2 = some .unexpectedChar := fun _ => error_iff_of_mem_walk
  unfold tokenize
  dsimp only
  generalize walk .html 0 text = items at herror
  induction items with
  | nil => rfl
  | cons item items ih =>
    obtain ⟨t, fault⟩ := item
    have hrest := ih fun item hitem => herror item (List.mem_cons_of_mem _ hitem)
    have hiff := herror (t, fault) List.mem_cons_self
    rw [List.map_cons, List.filter_cons]
    cases fault with
    | none =>
      have hkind : ¬(t.kind == .error) = true := by simpa using mt hiff.1 nofun
      rw [if_neg hkind, hrest, List.filterMap_cons_none rfl]
    | some fault =>
      rw [List.filterMap_cons, Option.map_some]
      dsimp only
      rw [List.filter_cons]
      by_cases hfault : fault = .unexpectedChar
      · subst hfault
        rw [if_pos (by simpa using hiff.2 rfl), if_pos (beq_self_eq_true _), List.map_cons,
          List.map_cons, hrest]
      · have hkind : ¬(t.kind == .error) = true := by
          simpa using mt hiff.1 (by simpa using hfault)
        rw [if_neg hkind, if_neg (by simpa using hfault), hrest]

/-- Behind a heredoc without an end there is the end of the file only. -/
theorem walk_cases_unterminated {mode : Mode} {offset : Nat} {cs : List Char} {t : Token}
    {label : String} {items items' : List (Token × Option LexFault)}
    (h : walk mode offset cs = items ++ (t, some (.unterminatedHeredoc label)) :: items') :
    t.kind = .heredoc ∧ ∃ n, items' = [(tokenAt .eof n [], none)] := by
  rcases walk_cases h with ⟨hitem, -⟩
    | ⟨front, kind, lexeme, skipped, rest, fault, mode', hstep, -, hitem, rfl⟩
  · cases hitem
  · cases hitem
    obtain ⟨hkind, -, rfl⟩ := hstep.unterminated label rfl
    rw [walk]
    exact ⟨hkind, _, rfl⟩

/-- A fault comes with the token it is about. -/
theorem exists_of_mem_errors {items : List (Token × Option LexFault)} {e : LexError}
    (h : e ∈ items.filterMap fun item => item.2.map (⟨·, item.1.span⟩)) :
    ∃ t, (t, some e.fault) ∈ items ∧ t.span = e.span := by
  obtain ⟨⟨t, fault⟩, hitem, he⟩ := List.mem_filterMap.1 h
  obtain ⟨fault, rfl, rfl⟩ := Option.map_eq_some_iff.1 he
  exact ⟨t, hitem, rfl⟩

theorem tokens_unterminated_last {text : List Char} {e : LexError}
    (he : e ∈ (tokenize text).errors) (hfault : e.fault.isUnterminated) :
    ∃ (before : List Token) (t last : Token), (tokenize text).tokens = before ++ [t, last] ∧
      t.kind = .heredoc ∧ t.span = e.span ∧ last.kind = .eof := by
  obtain ⟨t, hitem, hspan⟩ := exists_of_mem_errors he
  obtain ⟨items, items', hsplit⟩ := List.append_of_mem hitem
  obtain ⟨label, hlabel⟩ := LexFault.exists_label hfault
  rw [hlabel] at hsplit
  obtain ⟨hkind, n, rfl⟩ := walk_cases_unterminated hsplit
  refine ⟨items.map (·.1), t, tokenAt .eof n [], ?_, hkind, hspan, rfl⟩
  rw [tokenize, hsplit, List.map_append]
  rfl

theorem tokens_unterminated_le (text : List Char) :
    ((tokenize text).errors.filter (·.fault.isUnterminated)).length ≤ 1 := by
  by_cases hnone : ∀ e ∈ (tokenize text).errors, ¬e.fault.isUnterminated = true
  · rw [List.filter_eq_nil_iff.2 hnone]
    exact Nat.zero_le 1
  · simp only [Classical.not_forall, Classical.not_not] at hnone
    obtain ⟨e, he, hfault⟩ := hnone
    obtain ⟨t, hitem, -⟩ := exists_of_mem_errors he
    obtain ⟨items, items', hsplit⟩ := List.append_of_mem hitem
    obtain ⟨label, hlabel⟩ := LexFault.exists_label hfault
    rw [hlabel] at hsplit
    -- all other heredocs stand in front of it, and none of them can be the last token
    have hbefore : ∀ e' ∈ items.filterMap fun item => item.2.map (LexError.mk · item.1.span),
        ¬e'.fault.isUnterminated = true := by
      intro e' he' hfault'
      obtain ⟨t', hitem', -⟩ := exists_of_mem_errors he'
      obtain ⟨front, back, rfl⟩ := List.append_of_mem hitem'
      obtain ⟨label', hlabel'⟩ := LexFault.exists_label hfault'
      rw [hlabel', List.append_assoc, List.cons_append] at hsplit
      obtain ⟨-, n, hlast⟩ := walk_cases_unterminated hsplit
      rcases List.append_eq_singleton_iff.1 hlast with ⟨-, h⟩ | ⟨-, h⟩ <;> cases h
    obtain ⟨-, n, rfl⟩ := walk_cases_unterminated hsplit
    rw [tokenize, hsplit, List.filterMap_append, List.filter_append,
      List.filter_eq_nil_iff.2 hbefore]
    exact Nat.le_refl 1

/-! ### Every text -/

/-- **The tokens of a text lose nothing of it.**  The mode that tokens lead to is the mode in which
the walk goes on behind them. -/
theorem tokenize_lossless (text : List Char) :
    Lossless text (tokenize text) ∧
      ∀ items items', walk .html 0 text = items ++ items' → items' ≠ [] →
        ∃ before rest, text = before ++ rest ∧
          items' = walk (Mode.html.afterAll (items.map (·.1))) (byteLength before) rest := by
  refine ⟨⟨tokens_eof text, ?_, fun _ _ _ h _ hu => tokens_ordered h hu,
    fun _ => tokens_nonempty, fun t ht => ?_, fun _ _ _ _ => tokens_gaps,
    fun before t after h hkind => ?_, fun _ ht hkind _ _ => tokens_noOpenTag ht hkind,
    tokens_errors text, tokens_unterminated_le text, fun _ => tokens_unterminated_last⟩,
    fun items items' h hne => ?_⟩
  · intro t ht
    obtain ⟨after, hsplit⟩ := List.head?_eq_some_iff.1 ht
    exact tokens_start hsplit
  · obtain ⟨before, after, htext, hspan⟩ := tokens_covers ht
    refine ⟨⟨before, after, htext, by rw [byteLength_append, hspan]⟩, ?_⟩
    have hchars := Span.chars_append before t.lexeme.toList after
    rw [← htext, ← hspan] at hchars
    rw [Span.slice, hchars, String.ofList_toList]
  · rcases token_cases h with ⟨rfl, -⟩
      | ⟨front, kind, lexeme, skipped, rest, fault, mode', hstep, -, rfl, -⟩
    · exact absurd rfl hkind
    · exact hstep.html_iff.symm
  · obtain ⟨before, rest, htext, hrest⟩ := exists_walk_of_append h hne
    exact ⟨before, rest, htext, by rw [hrest, Nat.zero_add]⟩

end PhpHandbook.Source
