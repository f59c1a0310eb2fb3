import Mathlib.Data.List.Forall2
import PhpHandbook.Proofs.LexemeLengths
import PhpHandbook.Proofs.Lossless
import PhpHandbook.Proofs.Positions
import PhpHandbook.Proofs.Words

/-!
# Tokens that are written out

A text can be put together from tokens.  It is read as these tokens again if none of them goes on in
what stands behind it.  What a token would go on with depends on its kind: a word on letters, digits
and separators, an operator on the characters of operators, a bracket on nothing.

## Main definitions

* `TokenKind.goesOn`: the characters that a token of a kind would go on with.
* `Scans`: a text that is read as one token wherever it does not go on.
* `Written`, `Legible`: tokens with the gaps behind them, and what keeps them apart.

## Main statements

* `walk_written`: the walk over tokens that are written out makes these tokens.
* `exists_items_written`: so the items of such a text are known.
-/

namespace PhpHandbook

namespace Source

open Text (run)
open DocBlock (run_append run_take take_add_run)

/-! ### Names with separators -/

/-- A text that **no name goes on into**. -/
def EndsName (rest : List Char) : Prop :=
  ∀ c, rest.head? = some c → isNamePart c = false ∧ c ≠ '\\'

theorem segments_of_endsName {rest : List Char} (h : EndsName rest) : segments rest = 0 := by
  unfold segments
  split
  · exact absurd rfl (h '\\' rfl).2
  · rfl

theorem head?_take_segments (cs rest : List Char) (h : EndsName rest) :
    ∀ c, (cs.take (segments cs) ++ rest).head? = some c → isNamePart c = false := by
  intro c hc
  by_cases hzero : segments cs = 0
  · rw [hzero, List.take_zero, List.nil_append] at hc
    exact (h c hc).1
  · obtain ⟨n, hn⟩ := Nat.exists_eq_succ_of_ne_zero hzero
    unfold segments at hzero
    split at hzero
    · rw [hn] at hc
      obtain rfl : '\\' = c := by simpa using hc
      decide
    · exact absurd rfl hzero

/-- The segments that were cut out are all there is where no name goes on. -/
theorem segments_take (cs : List Char) {rest : List Char} (h : EndsName rest) :
    segments (cs.take (segments cs) ++ rest) = segments cs := by
  induction cs using segments.induct with
  | case1 c cs hc n ih =>
    have ih : segments ((cs.drop (run isNamePart cs)).take (segments (cs.drop (run isNamePart cs)))
        ++ rest) = segments (cs.drop (run isNamePart cs)) := ih
    have hsegments : segments ('\\' :: c :: cs) = run isNamePart cs
        + segments (cs.drop (run isNamePart cs)) + 1 + 1 := by
      rw [segments, if_pos hc]
      dsimp only
      omega
    have hrun : run isNamePart (cs.take (run isNamePart cs)
        ++ ((cs.drop (run isNamePart cs)).take (segments (cs.drop (run isNamePart cs))) ++ rest))
        = run isNamePart cs := by
      rw [run_append (head?_take_segments _ _ h), run_take]
    have hlength : (cs.take (run isNamePart cs)).length = run isNamePart cs :=
      List.length_take_of_le (List.takeWhile_prefix _).length_le
    rw [hsegments, List.take_succ_cons, List.take_succ_cons, List.take_add, List.cons_append,
      List.cons_append, List.append_assoc, segments, if_pos hc]
    dsimp only
    rw [hrun, List.drop_left' hlength, ih]
    omega
  | case2 c cs hc =>
    rw [segments, if_neg hc]
    exact segments_of_endsName h
  | case3 cs hcs =>
    rw [segments.eq_2 cs hcs]
    exact segments_of_endsName h

/-! ### One token -/

/-- The characters that **a token of a kind would go on with**. -/
def TokenKind.goesOn : TokenKind → Char → Bool
  | .keyword _, c | .name, c | .qualifiedName, c | .rootedName, c => isNamePart c || c == '\\'
  | .variableName, c => isNamePart c
  | .mark .colon, c => c == ':'
  | .mark .question, c | .mark .ampersand, c | .mark .pipe, c | .mark .equals, c => isOperatorChar c
  | .mark .braceOpen, _ | .mark .braceClose, _ | .mark .parenOpen, _ | .mark .parenClose, _
  | .mark .bracketOpen, _ | .mark .bracketClose, _ | .mark .semicolon, _ | .mark .comma, _ => false
  | _, _ => true

/-- **A text that is read as one token** of a kind wherever it does not go on. -/
def Scans (kind : TokenKind) (lexeme : List Char) : Prop :=
  ∃ c cs, lexeme = c :: cs ∧ isGap c = false ∧ kind ≠ .closeTag ∧
    ¬kind.isTrivia = true ∧
    ∀ behind, (∀ d, behind.head? = some d → kind.goesOn d = false) →
      munch c (cs ++ behind) = .token kind cs.length

theorem isGap_of_isNameStart {c : Char} (hc : isNameStart c = true) : isGap c = false := by
  by_contra hgap
  simp only [isGap, Bool.not_eq_false, Bool.or_eq_true, beq_iff_eq] at hgap
  rcases hgap with (((rfl | rfl) | rfl) | rfl) | rfl <;> exact absurd hc (by decide)

/-- The kind of a word without separators. -/
def wordKind (word : List Char) : TokenKind :=
  match Keyword.ofText? word with
  | some k => .keyword k
  | none => .name

theorem endsName_of_goesOn {behind : List Char}
    (h : ∀ d, behind.head? = some d → TokenKind.name.goesOn d = false) : EndsName behind := by
  intro d hd
  have hgoes := h d hd
  simp only [TokenKind.goesOn, Bool.or_eq_false_iff, beq_eq_false_iff_ne] at hgoes
  exact hgoes

theorem wordKind_goesOn (word : List Char) : (wordKind word).goesOn = TokenKind.name.goesOn := by
  funext c
  unfold wordKind
  split <;> rfl

/-- A word is read as a keyword, or as a name. -/
theorem scans_word {c : Char} {cs : List Char} (hc : isNameStart c = true)
    (hcs : ∀ d ∈ cs, isNamePart d = true) : Scans (wordKind (c :: cs)) (c :: cs) := by
  have hkind : wordKind (c :: cs) ≠ .closeTag ∧ ¬(wordKind (c :: cs)).isTrivia = true := by
    unfold wordKind
    split <;> exact ⟨nofun, nofun⟩
  refine ⟨c, cs, rfl, isGap_of_isNameStart hc, hkind.1, hkind.2, fun behind hbehind => ?_⟩
  rw [wordKind_goesOn] at hbehind
  have hends := endsName_of_goesOn hbehind
  have hrun : run isNamePart (cs ++ behind) = cs.length := by
    rw [run_append fun d hd => (hends d hd).1, run, List.takeWhile_eq_self_iff.2 hcs]
  have hhead : ¬(behind.head? == some '\\') = true := by
    rw [beq_iff_eq]
    exact fun h => (hends '\\' h).2 rfl
  unfold munch
  rw [if_pos hc, munchWord, hrun, List.drop_left, List.take_left, segments_of_endsName hends,
    if_neg (Nat.lt_irrefl 0), if_neg hhead, wordKind]
  cases Keyword.ofText? (c :: cs) <;> rfl

/-- A dollar sign with a word behind it is read as a variable. -/
theorem scans_variable {c : Char} {cs : List Char} (hc : isNameStart c = true)
    (hcs : ∀ d ∈ cs, isNamePart d = true) : Scans .variableName ('$' :: c :: cs) := by
  refine ⟨'$', c :: cs, rfl, by decide, nofun, nofun, fun behind hbehind => ?_⟩
  have hbehind : ∀ d, behind.head? = some d → isNamePart d = false := hbehind
  have hrun : run isNamePart (cs ++ behind) = cs.length := by
    rw [run_append hbehind, run, List.takeWhile_eq_self_iff.2 hcs]
  show (if isNameStart c then Munched.token .variableName (1 + run isNamePart (cs ++ behind))
    else .token (.mark .dollar) 0) = _
  rw [if_pos hc, hrun, List.length_cons, Nat.add_comm]

/-- Marks that are told apart by the next character at most. -/
def Mark.isShort : Mark → Bool
  | .braceOpen | .braceClose | .parenOpen | .parenClose | .bracketOpen | .bracketClose
  | .semicolon | .comma | .colon | .question | .ampersand | .pipe | .equals => true
  | _ => false

theorem operatorToken_of_free {c : Char} {behind : List Char}
    (h : ∀ d, behind.head? = some d → isOperatorChar d = false) :
    operatorToken c behind = ((operatorMark? [c]).getD .operator, 0) := by
  have hrun : run isOperatorChar behind = 0 := by
    have happend := run_append h []
    rwa [List.nil_append] at happend
  rw [operatorToken, hrun, List.take_zero]

theorem scans_operatorMark {c : Char} {mark : Mark} (hgap : isGap c = false)
    (hgoes : (TokenKind.mark mark).goesOn = isOperatorChar)
    (hmark : operatorMark? [c] = some (.mark mark))
    (hmunch : ∀ cs, munch c cs = .token (operatorToken c cs).1 (operatorToken c cs).2) :
    Scans (.mark mark) [c] := by
  refine ⟨c, [], rfl, hgap, nofun, nofun, fun behind hbehind => ?_⟩
  rw [hgoes] at hbehind
  rw [List.nil_append, hmunch, operatorToken_of_free hbehind, hmark]
  rfl

/-- A short mark is read as what it is. -/
theorem scans_mark {mark : Mark} (h : mark.isShort) : Scans (.mark mark) mark.text.toList := by
  cases mark
  case colon =>
    refine ⟨':', [], rfl, by decide, nofun, nofun, fun behind hbehind => ?_⟩
    have hhead : ¬(behind.head? == some ':') = true := by
      rw [beq_iff_eq]
      exact fun h => absurd (hbehind ':' h) (by decide)
    show (if behind.head? == some ':' then Munched.token (.mark .doubleColon) 1
      else .token (.mark .colon) 0) = _
    rw [if_neg hhead]
    rfl
  case question => exact @scans_operatorMark '?' _ (by decide) rfl rfl fun _ => rfl
  case ampersand => exact @scans_operatorMark '&' _ (by decide) rfl rfl fun _ => rfl
  case pipe => exact @scans_operatorMark '|' _ (by decide) rfl rfl fun _ => rfl
  case equals => exact @scans_operatorMark '=' _ (by decide) rfl rfl fun _ => rfl
  all_goals first
    | exact ⟨_, [], rfl, by decide, nofun, nofun, fun behind _ => rfl⟩
    | cases h

/-! ### Several tokens -/

/-- **A token that is written out**, with the gap behind it. -/
structure Written where
  kind : TokenKind
  lexeme : List Char
  gap : List Char := []

namespace Written

/-- A mark, with the gap behind it. -/
def mark (mark : Mark) (gap : List Char := []) : Written :=
  ⟨.mark mark, mark.text.toList, gap⟩

/-- The text that is written out. -/
def text : List Written → List Char
  | [] => []
  | w :: ws => w.lexeme ++ w.gap ++ text ws

/-- The tokens that are written out from an offset on. -/
def tokens (offset : Nat) : List Written → List Token
  | [] => []
  | w :: ws => tokenAt w.kind offset w.lexeme :: tokens (offset + byteLength (w.lexeme ++ w.gap)) ws

theorem text_append (ws vs : List Written) : text (ws ++ vs) = text ws ++ text vs := by
  induction ws with
  | nil => rfl
  | cons w ws ih => rw [List.cons_append, text, text, ih, ← List.append_assoc]

end Written

open Written (text tokens)

/-- **Tokens that are told apart** in front of `rest`: none goes on in what stands behind it. -/
def Legible (rest : List Char) : List Written → Prop
  | [] => True
  | w :: ws => Scans w.kind w.lexeme ∧ (∀ c ∈ w.gap, isGap c) ∧
      (∀ d, (w.gap ++ (text ws ++ rest)).head? = some d → w.kind.goesOn d = false) ∧
      Legible rest ws

theorem legible_append {rest : List Char} {ws vs : List Written}
    (hws : Legible (text vs ++ rest) ws) (hvs : Legible rest vs) : Legible rest (ws ++ vs) := by
  induction ws with
  | nil => exact hvs
  | cons w ws ih =>
    obtain ⟨hscans, hgap, hapart, hws⟩ := hws
    refine ⟨hscans, hgap, ?_, ih hws⟩
    rw [List.append_eq, Written.text_append, List.append_assoc]
    exact hapart

theorem phpPiece_of_munch {c : Char} {cs : List Char} {kind : TokenKind} {n : Nat}
    (h : munch c cs = .token kind n) (hkind : kind ≠ .closeTag) :
    phpPiece c cs = { kind, tail := n, mode := .php } := by
  rw [phpPiece, h]
  cases kind
  case closeTag => exact absurd rfl hkind
  all_goals rfl

/-- The walk makes the token that stands here. -/
theorem walk_scans {kind : TokenKind} {lexeme behind : List Char} (h : Scans kind lexeme)
    (hbehind : ∀ d, behind.head? = some d → kind.goesOn d = false) (offset : Nat) :
    walk .php offset (lexeme ++ behind) = (tokenAt kind offset lexeme, none) ::
      walk .php (offset + byteLength lexeme) behind := by
  obtain ⟨c, cs, rfl, hc, hkind, -, hmunch⟩ := h
  have hpiece : piece .php c (cs ++ behind) = { kind, tail := cs.length, mode := .php } :=
    phpPiece_of_munch (hmunch behind hbehind) hkind
  have hnot : ¬(Mode.php = Mode.php ∧ isGap c = true) := by simp [hc]
  rw [List.cons_append, walk, if_neg hnot, hpiece]
  simp only [List.take_left, List.drop_left, Nat.add_zero, List.take_zero, byteLength_nil]
  rfl

/-- **The walk over tokens that are told apart** makes these tokens. -/
theorem walk_written {rest : List Char} {ws : List Written} (h : Legible rest ws) (offset : Nat) :
    walk .php offset (text ws ++ rest) = (tokens offset ws).map (·, none) ++
      walk .php (offset + byteLength (text ws)) rest := by
  induction ws generalizing offset with
  | nil => rfl
  | cons w ws ih =>
    obtain ⟨hscans, hgap, hapart, hws⟩ := h
    rw [text, List.append_assoc, List.append_assoc, walk_scans hscans hapart, walk_gap hgap, ih hws,
      tokens, byteLength_append, byteLength_append, byteLength_append]
    simp only [List.map_cons, List.cons_append, Nat.add_assoc]

/-- The opening tag in front of tokens that are told apart. -/
theorem tokenize_written {ws : List Written} (h : Legible [] ws) :
    ∃ eof : Token, eof.kind = .eof ∧ (tokenize ("<?php ".toList ++ text ws)).tokens
      = tokenAt .openTag 0 "<?php ".toList :: tokens 6 ws ++ [eof] := by
  have hopening : walk .html 0 ("<?php ".toList ++ text ws)
      = (tokenAt .openTag 0 "<?php ".toList, none) :: walk .php 6 (text ws) := by
    show walk .html 0 ('<' :: ('?' :: 'p' :: 'h' :: 'p' :: ' ' :: text ws)) = _
    have hlength : openTagLength? ('<' :: '?' :: 'p' :: 'h' :: 'p' :: ' ' :: text ws) = some 6 := by
      show (if 'p'.toLower == 'p' && 'h'.toLower == 'h' && 'p'.toLower == 'p' then
        (if Text.isBlank ' ' then some 6 else none) else none) = some 6
      rw [if_pos (by decide), if_pos (by decide +kernel)]
    rw [walk, if_neg (fun h => absurd h.1 (by decide)), piece, htmlPiece, hlength]
    rfl
  have hwalk := walk_written h 6
  rw [List.append_nil] at hwalk
  refine ⟨⟨.eof, ⟨6 + byteLength (text ws), 6 + byteLength (text ws)⟩, ""⟩, rfl, ?_⟩
  have htokens : ((tokens 6 ws).map (·, (none : Option LexFault))).map (·.1) = tokens 6 ws := by
    rw [List.map_map]
    exact List.map_id _
  rw [tokenize, hopening, hwalk, walk, List.map_cons, List.map_append, htokens]
  rfl

end Source

namespace Declaration

open Source (Written Legible Token TokenKind tokenAt tokenize)
open Source.Written (text tokens)

/-! ### Items -/

/-- **An item that is written out**: kind and text are given, and no comment stands in front. -/
structure Item.Spells (w : Written) (i : Item) : Prop where
  kind : i.kind = w.kind
  lexeme : i.token.lexeme = String.ofList w.lexeme
  comments : i.comments = []

/-- Items of two parts, one behind the other. -/
theorem exists_spells_append {ws vs : List Written} {is : List Item}
    (h : List.Forall₂ Item.Spells (ws ++ vs) is) :
    ∃ js ks, List.Forall₂ Item.Spells ws js ∧ List.Forall₂ Item.Spells vs ks ∧
      is = js ++ ks := by
  refine ⟨is.take ws.length, is.drop ws.length, ?_, ?_, (List.take_append_drop _ _).symm⟩
  · have htake := List.forall₂_take ws.length h
    rwa [List.take_left] at htake
  · have hdrop := List.forall₂_drop ws.length h
    rwa [List.drop_left] at hdrop

theorem attachComments_written {ws : List Written} {rest : List Char} (h : Legible rest ws)
    (offset : Nat) {eof : Token} (heof : ¬eof.kind.isTrivia = true) :
    ∃ is, attachComments [] (tokens offset ws ++ [eof]) = is ++ [⟨[], eof⟩] ∧
      List.Forall₂ Item.Spells ws is := by
  induction ws generalizing offset with
  | nil => exact ⟨[], attachComments_cons [] heof [], .nil⟩
  | cons w ws ih =>
    obtain ⟨⟨c, cs, -, -, -, htrivia, -⟩, -, -, hws⟩ := h
    obtain ⟨is, his, hspells⟩ := ih hws (offset + Source.byteLength (w.lexeme ++ w.gap))
    refine ⟨⟨[], tokenAt w.kind offset w.lexeme⟩ :: is, ?_,
      .cons ⟨rfl, rfl, rfl⟩ hspells⟩
    rw [tokens, List.cons_append, attachComments_cons [] htrivia, his, List.cons_append]

/-- **The items of a text that is written out** are the opening tag and the tokens. -/
theorem exists_items_written {ws : List Written} (h : Legible [] ws) :
    ∃ opening is eof, attachComments [] (tokenize ("<?php ".toList ++ text ws)).tokens
        = opening :: is ++ [⟨[], eof⟩] ∧
      Item.kind opening = .openTag ∧ List.Forall₂ Item.Spells ws is := by
  obtain ⟨eof, heof, htokens⟩ := Source.tokenize_written h
  have htrivia : ¬eof.kind.isTrivia = true := by
    rw [heof]
    exact Bool.false_ne_true
  obtain ⟨is, his, hspells⟩ := attachComments_written h 6 htrivia
  refine ⟨⟨[], tokenAt .openTag 0 "<?php ".toList⟩, is, eof, ?_, rfl, hspells⟩
  have hopening : ¬TokenKind.openTag.isTrivia = true := Bool.false_ne_true
  rw [htokens, List.cons_append, attachComments_cons [] hopening, his]
  rfl

end Declaration

end PhpHandbook
