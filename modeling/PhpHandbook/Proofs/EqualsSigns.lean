import PhpHandbook.Proofs.HeredocOpenings
import PhpHandbook.Proofs.WrittenTokens

/-!
# What stands in front of an equals sign

Where two texts differ only in the gap behind an equals sign, the tokens in front of it are the
same.  No token that stops there reads on into the gap: names and numbers end at the equals sign,
and what is closed by a delimiter was closed before.

A token may fail, though, because its delimiter never comes: a quoted text, or a block comment.
This depends on everything that follows, but not on gaps, as no delimiter is made of these.

## Main definitions

* `Keeps`: what is as long as a bound at most is the same in both texts.

## Main statements

* `munch_keeps`: a token that stops in front of the equals sign is the longest one in both texts.
* `piece_keeps`: a step that stops there is made in both texts.
-/

namespace PhpHandbook.Source

open Text (run isHexDigit isBinaryDigit)
open DocBlock (run_append run_le)

/-! ### What is the same up to a bound -/

/-- **Of two results the second is the first**, unless this is longer than a bound. -/
def Keeps {α : Type} (length : α → Nat) (bound : Nat) (a₁ a₂ : α) : Prop :=
  length a₁ ≤ bound → a₂ = a₁

section Keeps

variable {α β : Type} {length : α → Nat} {length' : β → Nat} {bound bound' : Nat}
    {a₁ a₂ : α}

theorem Keeps.of_eq (h : a₂ = a₁) : Keeps length bound a₁ a₂ :=
  fun _ => h

theorem Keeps.of_lt (h : bound < length a₁) : Keeps length bound a₁ a₂ :=
  fun hle => absurd hle (Nat.not_le_of_lt h)

theorem Keeps.map (h : Keeps length bound a₁ a₂) {f : α → β}
    (hf : length' (f a₁) ≤ bound' → length a₁ ≤ bound) :
    Keeps length' bound' (f a₁) (f a₂) :=
  fun hle => congrArg f (h (hf hle))

end Keeps

/-- How far a search goes that may find nothing. -/
def found (o : Option Nat) : Nat :=
  o.getD 0

/-! ### Runs, names and numbers -/

section Scanners

variable (w b b₁ b₂ : List Char)

theorem run_keeps (p : Char → Bool) :
    Keeps id w.length (run p (w ++ '=' :: b₁)) (run p (w ++ '=' :: b₂)) := by
  induction w with
  | nil =>
    simp only [List.nil_append, run, List.takeWhile_cons]
    split
    · exact .of_lt (Nat.succ_pos _)
    · exact .of_eq rfl
  | cons c w ih =>
    simp only [List.cons_append, run, List.takeWhile_cons] at ih ⊢
    split
    · exact ih.map (f := (· + 1)) fun hle => Nat.le_of_succ_le_succ hle
    · exact .of_eq rfl

/-- A run of characters other than the equals sign stops there. -/
theorem run_before {p : Char → Bool} (hp : p '=' = false) : run p (w ++ '=' :: b) = run p w := by
  refine run_append (fun c hc => ?_) w
  cases hc
  exact hp

theorem drop_run_before (p : Char → Bool) :
    (w ++ '=' :: b).drop (run p w) = w.drop (run p w) ++ '=' :: b :=
  List.drop_append_of_le_length (run_le p w)

theorem take_run_before (p : Char → Bool) : (w ++ '=' :: b).take (run p w) = w.take (run p w) :=
  List.take_append_of_le_length (run_le p w)

theorem head?_before {d : Char} (hd : d ≠ '=') :
    ((w ++ '=' :: b).head? == some d) = (w.head? == some d) := by
  cases w with
  | nil => simp [hd.symm]
  | cons c w => rfl

theorem segments_of_ne {c : Char} (hc : c ≠ '\\') (cs : List Char) : segments (c :: cs) = 0 :=
  segments.eq_2 _ fun _ _ h => hc (List.cons.inj h).1

theorem segments_before : segments (w ++ '=' :: b) = segments w := by
  induction w using segments.induct with
  | case1 c cs hc n ih =>
    have ih : segments (cs.drop (run isNamePart cs) ++ '=' :: b)
        = segments (cs.drop (run isNamePart cs)) := ih
    rw [List.cons_append, List.cons_append, segments, if_pos hc, segments, if_pos hc]
    dsimp only
    rw [run_before cs b (by decide), drop_run_before, ih]
  | case2 c cs hc =>
    rw [List.cons_append, List.cons_append, segments, if_neg hc, segments, if_neg hc]
  | case3 cs hcs =>
    rw [segments.eq_2 cs hcs]
    rcases cs with _ | ⟨c, _ | ⟨d, ds⟩⟩
    · exact segments_of_ne (by decide) b
    · by_cases hc : c = '\\'
      · subst hc
        rw [List.cons_append, List.nil_append, segments, if_neg (by decide)]
      · exact segments_of_ne hc _
    · exact segments_of_ne (fun hc => hcs d ds (hc ▸ rfl)) _

theorem exponent_before : exponent (w ++ '=' :: b) = exponent w := by
  have hrun (ds : List Char) : run Char.isDigit (ds ++ '=' :: b) = run Char.isDigit ds :=
    run_before ds b (by decide)
  match w with
  | [] => rfl
  | [e] =>
    have hzero : run Char.isDigit ('=' :: b) = 0 := hrun []
    simp [exponent, hzero]
  | e :: s :: ds =>
    simp only [exponent, List.cons_append]
    rw [hrun ds, ← List.cons_append, hrun]

theorem fraction_of_ne {c : Char} (hc : c ≠ '.') (cs : List Char) : fraction (c :: cs) = 0 :=
  fraction.eq_2 _ fun _ _ h => hc (List.cons.inj h).1

theorem fraction_before : fraction (w ++ '=' :: b) = fraction w := by
  match w with
  | [] => rfl
  | [c] =>
    by_cases hc : c = '.'
    · subst hc
      rfl
    · rw [fraction_of_ne hc]
      exact fraction_of_ne hc _
  | c :: d :: cs =>
    by_cases hc : c = '.'
    · subst hc
      simp only [fraction, List.cons_append]
      rw [run_before cs b (by decide), drop_run_before, exponent_before]
    · rw [fraction_of_ne hc]
      exact fraction_of_ne hc _

theorem basedDigits_before {marker : Char} (hmarker : ('='.toLower == marker) = false)
    {isDigit : Char → Bool} (hdigit : isDigit '=' = false) :
    basedDigits marker isDigit (w ++ '=' :: b) = basedDigits marker isDigit w := by
  match w with
  | [] =>
    match b with
    | [] => rfl
    | d :: ds =>
      show (if '='.toLower == marker && isDigit d then _ else 0) = 0
      rw [hmarker, Bool.false_and, if_neg nofun]
  | [x] =>
    show (if x.toLower == marker && isDigit '=' then _ else 0) = 0
    rw [hdigit, Bool.and_false, if_neg nofun]
  | x :: d :: cs =>
    simp only [basedDigits, List.cons_append]
    rw [run_before cs b (by simp [hdigit])]

theorem numberTail_before (c : Char) : numberTail c (w ++ '=' :: b) = numberTail c w := by
  simp only [numberTail]
  rw [run_before w b (by decide), drop_run_before, fraction_before, exponent_before,
    basedDigits_before w b (by decide) (by decide),
    basedDigits_before w b (by decide) (by decide)]

/-! ### Heredocs -/

theorem heredocOpening_before : heredocOpening (w ++ '=' :: b) = heredocOpening w := by
  have hlabel (cs : List Char) : run (fun d => isLabelStart d || d.isDigit) (cs ++ '=' :: b)
      = run (fun d => isLabelStart d || d.isDigit) cs := run_before cs b (by decide)
  simp only [heredocOpening]
  rw [run_before w b (by decide), drop_run_before]
  generalize w.drop (run (fun c => c == ' ' || c == '\t') w) = ds
  rcases ds with _ | ⟨c, _ | ⟨l, more⟩⟩
  · rfl
  · simp only [List.cons_append, List.nil_append]
    rw [← List.nil_append ('=' :: b), hlabel, List.take_append_of_le_length (run_le _ _)]
    rfl
  · simp only [List.cons_append]
    rw [← List.cons_append, hlabel, take_run_before, hlabel, take_run_before, drop_run_before]
    by_cases hquote : (c == '"' || c == '\'') = true
    · have hne : c ≠ '=' := by
        rintro rfl
        exact absurd hquote (by decide)
      rw [head?_before _ b hne]
    · rw [if_neg hquote, if_neg hquote]

/-- A label lies in front of the equals sign. -/
theorem heredocOpening_label {w label : List Char} {n : Nat}
    (h : heredocOpening w = .opens label n) :
    n ≤ w.length ∧ '=' ∉ label := by
  obtain ⟨hlabel, opening, rest, rfl, rfl, -⟩ := heredocOpening_cases h
  refine ⟨?_, fun hmem => absurd (hlabel.forall_mem _ hmem) (by decide)⟩
  rw [List.length_append]
  exact Nat.le_add_right ..

theorem isPrefixOf_before {label : List Char} (hlabel : '=' ∉ label) :
    label.isPrefixOf (w ++ '=' :: b) = label.isPrefixOf w := by
  induction label generalizing w with
  | nil => rfl
  | cons l label ih =>
    obtain ⟨hl, hlabel⟩ := not_or.1 (List.mem_cons.not.1 hlabel)
    cases w with
    | nil =>
      show (l == '=' && _) = false
      rw [beq_eq_false_iff_ne.2 (Ne.symm hl), Bool.false_and]
    | cons c w =>
      rw [List.cons_append, List.isPrefixOf_cons_cons, List.isPrefixOf_cons_cons, ih w hlabel]

theorem closingLine?_before {label : List Char} (hlabel : '=' ∉ label) :
    closingLine? label (w ++ '=' :: b) = closingLine? label w := by
  have hequals : (Text.isAlphanumeric '=' || '=' == '_') = false := by decide +kernel
  simp only [closingLine?]
  rw [run_before w b (by decide +kernel), drop_run_before, isPrefixOf_before _ b hlabel]
  generalize w.drop (run (fun c => Text.isBlank c && c != '\n') w) = ds
  by_cases h : label.isPrefixOf ds = true
  · obtain ⟨es, rfl⟩ := List.isPrefixOf_iff_prefix.1 h
    rw [List.append_assoc, List.drop_left, List.drop_left]
    cases es with
    | nil =>
      show (if _ && !(Text.isAlphanumeric '=' || '=' == '_') then _ else none) = _
      rw [hequals]
      rfl
    | cons e es => rfl
  · rw [Bool.not_eq_true] at h
    rw [h, Bool.false_and, Bool.false_and]

theorem heredocBody?_of_some {label : List Char} (hlabel : '=' ∉ label) {seen n : Nat}
    {w : List Char} (h : heredocBody? label seen w = some n) :
    heredocBody? label seen (w ++ '=' :: b) = some n := by
  induction w generalizing seen with
  | nil => cases h
  | cons c cs ih =>
    rw [heredocBody?] at h
    rw [List.cons_append, heredocBody?, closingLine?_before cs b hlabel]
    split at h
    · next hc =>
      rw [if_pos hc]
      split at h
      · exact h
      · exact ih h
    · next hc =>
      rw [if_neg hc]
      exact ih h

/-- A heredoc that is not closed in front of the equals sign goes on behind it. -/
theorem lt_of_heredocBody? {label : List Char} (hlabel : '=' ∉ label) {seen n : Nat}
    {w : List Char} (hw : heredocBody? label seen w = none)
    (h : heredocBody? label seen (w ++ '=' :: b) = some n) :
    seen + w.length < n := by
  have hlt {seen n : Nat} {cs : List Char}
      (h : heredocBody? label seen cs = some n) : seen < n := by
    induction cs generalizing seen with
    | nil => cases h
    | cons c cs ih =>
      rw [heredocBody?] at h
      split at h
      · split at h
        · cases h
          omega
        · exact Nat.lt_of_succ_lt (ih h)
      · exact Nat.lt_of_succ_lt (ih h)
  induction w generalizing seen with
  | nil => exact hlt h
  | cons c cs ih =>
    rw [heredocBody?] at hw
    rw [List.cons_append, heredocBody?, closingLine?_before cs b hlabel] at h
    rw [List.length_cons]
    split at hw
    · next hc =>
      rw [if_pos hc] at h
      split at hw
      · cases hw
      · next hline =>
        rw [hline] at h
        have := ih hw h
        omega
    · next hc =>
      rw [if_neg hc] at h
      have := ih hw h
      omega

end Scanners

/-! ### Delimiters -/

theorem ne_of_isGap {c d : Char} (hc : isGap c = true) (hd : isGap d = false) : c ≠ d := by
  rintro rfl
  cases hd.symm.trans hc

section Delimiters

variable (w behind : List Char) {gap gap₁ gap₂ : List Char}

theorem quotedTail_cons {quote c : Char} (hc : c ≠ '\\') (seen : Nat) (cs : List Char) :
    quotedTail quote seen (c :: cs)
      = if c = quote then some (seen + 1) else quotedTail quote (seen + 1) cs :=
  quotedTail.eq_4 _ _ _ _ (fun h => absurd h hc) fun _ _ h => absurd h hc

theorem quotedTail_gap {quote : Char} (hquote : isGap quote = false)
    (hgap : ∀ c ∈ gap, isGap c = true) (seen : Nat) :
    quotedTail quote seen (gap ++ behind) = quotedTail quote (seen + gap.length) behind := by
  induction gap generalizing seen with
  | nil => rfl
  | cons c gap ih =>
    have hc := hgap c List.mem_cons_self
    rw [List.cons_append, quotedTail_cons (ne_of_isGap hc (by decide)),
      if_neg (ne_of_isGap hc hquote), ih (fun d hd => hgap d (List.mem_cons_of_mem c hd)),
      List.length_cons, Nat.add_right_comm, Nat.add_assoc]

/-- Whether a quoted text is closed does not depend on how far the search has come. -/
theorem quotedTail_seen (quote : Char) (cs : List Char) {bound s₁ : Nat} (h : bound ≤ s₁)
    (s₂ : Nat) :
    Keeps found bound (quotedTail quote s₁ cs) (quotedTail quote s₂ cs) := by
  induction s₁, cs using quotedTail.induct quote generalizing s₂ with
  | case1 s₁ => exact .of_eq rfl
  | case2 s₁ => exact .of_eq rfl
  | case3 s₁ d cs ih => exact ih (by omega) (s₂ + 2)
  | case4 s₁ cs h₁ h₂ =>
    rw [quotedTail.eq_4 _ _ _ _ h₁ h₂, if_pos rfl]
    exact .of_lt (Nat.lt_succ_of_le h)
  | case5 s₁ c cs h₁ h₂ hc ih =>
    rw [quotedTail.eq_4 _ _ _ _ h₁ h₂, quotedTail.eq_4 _ _ _ _ h₁ h₂, if_neg hc, if_neg hc]
    exact ih (by omega) (s₂ + 1)

theorem quotedTail_keeps {quote : Char} (hquote : isGap quote = false) (hequals : quote ≠ '=')
    (hslash : quote ≠ '\\') (hgap₁ : ∀ c ∈ gap₁, isGap c = true)
    (hgap₂ : ∀ c ∈ gap₂, isGap c = true) (seen : Nat) :
    Keeps found (seen + w.length) (quotedTail quote seen (w ++ '=' :: (gap₁ ++ behind)))
      (quotedTail quote seen (w ++ '=' :: (gap₂ ++ behind))) := by
  induction seen, w using quotedTail.induct quote with
  | case1 seen =>
    simp only [List.nil_append]
    rw [quotedTail_cons (by decide), if_neg hequals.symm, quotedTail_gap _ hquote hgap₁,
      quotedTail_cons (by decide), if_neg hequals.symm, quotedTail_gap _ hquote hgap₂]
    exact quotedTail_seen _ _ (by simp only [List.length_nil]; omega) _
  | case2 seen =>
    simp only [List.cons_append, List.nil_append, quotedTail.eq_3]
    rw [quotedTail_gap _ hquote hgap₁, quotedTail_gap _ hquote hgap₂]
    exact quotedTail_seen _ _ (by simp only [List.length_singleton]; omega) _
  | case3 seen d cs ih =>
    simp only [List.cons_append, quotedTail.eq_3, List.length_cons]
    rwa [Nat.add_assoc, Nat.add_comm 2] at ih
  | case4 seen cs h₁ h₂ =>
    rw [List.cons_append, List.cons_append, quotedTail_cons hslash,
      quotedTail_cons hslash, if_pos rfl, if_pos rfl]
    exact .of_eq rfl
  | case5 seen c cs h₁ h₂ hc ih =>
    have hne : c ≠ '\\' := by
      intro h
      cases cs with
      | nil => exact h₁ h rfl
      | cons d ds => exact h₂ d ds h rfl
    rw [List.cons_append, List.cons_append, quotedTail_cons hne, quotedTail_cons hne,
      if_neg hc, if_neg hc, List.length_cons]
    rwa [Nat.add_assoc, Nat.add_comm 1] at ih

theorem backtickTail_gap (hgap : ∀ c ∈ gap, isGap c = true) (seen : Nat) :
    backtickTail seen (gap ++ behind) = backtickTail (seen + gap.length) behind := by
  induction gap generalizing seen with
  | nil => rfl
  | cons c gap ih =>
    have hc := ne_of_isGap (hgap c List.mem_cons_self) (by decide : isGap '\x60' = false)
    rw [List.cons_append, backtickTail, if_neg hc,
      ih (fun d hd => hgap d (List.mem_cons_of_mem c hd)), List.length_cons, Nat.add_right_comm,
      Nat.add_assoc]

theorem backtickTail_seen (cs : List Char) {bound s₁ : Nat} (h : bound ≤ s₁) (s₂ : Nat) :
    Keeps found bound (backtickTail s₁ cs) (backtickTail s₂ cs) := by
  induction cs generalizing s₁ s₂ with
  | nil => exact .of_eq rfl
  | cons c cs ih =>
    simp only [backtickTail]
    split
    · exact .of_lt (Nat.lt_succ_of_le h)
    · exact ih (by omega) (s₂ + 1)

theorem backtickTail_keeps (hgap₁ : ∀ c ∈ gap₁, isGap c = true)
    (hgap₂ : ∀ c ∈ gap₂, isGap c = true) (seen : Nat) :
    Keeps found (seen + w.length) (backtickTail seen (w ++ '=' :: (gap₁ ++ behind)))
      (backtickTail seen (w ++ '=' :: (gap₂ ++ behind))) := by
  induction w generalizing seen with
  | nil =>
    simp only [List.nil_append]
    rw [backtickTail, if_neg (by decide), backtickTail_gap _ hgap₁, backtickTail,
      if_neg (by decide), backtickTail_gap _ hgap₂]
    exact backtickTail_seen _ (by simp only [List.length_nil]; omega) _
  | cons c w ih =>
    simp only [List.cons_append, backtickTail, List.length_cons]
    split
    · exact .of_eq rfl
    · rw [Nat.add_comm w.length, ← Nat.add_assoc]
      exact ih (seen + 1)

theorem commentTail_cons {c : Char} (hc : c ≠ '*') (seen : Nat) (cs : List Char) :
    commentTail seen (c :: cs) = commentTail (seen + 1) cs :=
  commentTail.eq_3 _ _ _ fun _ h => absurd h hc

theorem commentTail_gap (hgap : ∀ c ∈ gap, isGap c = true) (seen : Nat) :
    commentTail seen (gap ++ behind) = commentTail (seen + gap.length) behind := by
  induction gap generalizing seen with
  | nil => rfl
  | cons c gap ih =>
    have hc := ne_of_isGap (hgap c List.mem_cons_self) (by decide : isGap '*' = false)
    rw [List.cons_append, commentTail_cons hc, ih (fun d hd => hgap d (List.mem_cons_of_mem c hd)),
      List.length_cons, Nat.add_right_comm, Nat.add_assoc]

theorem commentTail_seen (cs : List Char) {bound s₁ : Nat} (h : bound ≤ s₁) (s₂ : Nat) :
    Keeps found bound (commentTail s₁ cs) (commentTail s₂ cs) := by
  induction s₁, cs using commentTail.induct generalizing s₂ with
  | case1 s₁ => exact .of_eq rfl
  | case2 s₁ cs => exact .of_lt (Nat.lt_add_right 1 (Nat.lt_succ_of_le h))
  | case3 s₁ c cs hc ih =>
    rw [commentTail.eq_3 _ _ _ hc, commentTail.eq_3 _ _ _ hc]
    exact ih (by omega) (s₂ + 1)

theorem commentTail_keeps (hgap₁ : ∀ c ∈ gap₁, isGap c = true)
    (hgap₂ : ∀ c ∈ gap₂, isGap c = true) (seen : Nat) :
    Keeps found (seen + w.length) (commentTail seen (w ++ '=' :: (gap₁ ++ behind)))
      (commentTail seen (w ++ '=' :: (gap₂ ++ behind))) := by
  induction seen, w using commentTail.induct with
  | case1 seen =>
    simp only [List.nil_append]
    rw [commentTail_cons (by decide), commentTail_gap _ hgap₁, commentTail_cons (by decide),
      commentTail_gap _ hgap₂]
    exact commentTail_seen _ (by simp only [List.length_nil]; omega) _
  | case2 seen cs => exact .of_eq rfl
  | case3 seen c cs hc ih =>
    have hne (b : List Char) : ∀ tail, c = '*' → cs ++ '=' :: b = '/' :: tail → False := by
      intro tail hstar hslash
      cases cs with
      | nil => exact absurd (List.cons.inj hslash).1 (by decide)
      | cons d ds => exact hc ds hstar (by rw [(List.cons.inj hslash).1])
    rw [List.cons_append, List.cons_append, commentTail.eq_3 _ _ _ (hne _),
      commentTail.eq_3 _ _ _ (hne _), List.length_cons, Nat.add_comm cs.length, ← Nat.add_assoc]
    exact ih

end Delimiters

/-! ### The longest token -/

/-- How far a token goes behind its first character. -/
def Munched.tail : Munched → Nat
  | .token _ n => n
  | .heredoc _ n => n
  | .nothing => 0

/-- A text with a character in front that **no operator goes on with**. -/
def EndsOperator (b : List Char) : Prop :=
  ∃ d ds, b = d :: ds ∧ isOperatorChar d = false

theorem run_lt_of_endsOperator (w : List Char) {b : List Char} (h : EndsOperator b) :
    run isOperatorChar (w ++ b) < (w ++ b).length := by
  obtain ⟨d, ds, rfl, hd⟩ := h
  refine Nat.lt_of_le_of_ne (run_le _ _) fun hall => ?_
  have hwhole : (w ++ d :: ds).takeWhile isOperatorChar = w ++ d :: ds :=
    (List.takeWhile_prefix _).eq_of_length hall
  have hmem : d ∈ (w ++ d :: ds).takeWhile isOperatorChar := by
    rw [hwhole]
    exact List.mem_append_right w List.mem_cons_self
  exact absurd (List.mem_takeWhile_imp hmem) (by rw [hd]; exact nofun)

section Munch

variable (w behind : List Char) {b₁ b₂ gap₁ gap₂ : List Char}

theorem operatorToken_keeps (c : Char) :
    Keeps Prod.snd w.length (operatorToken c (w ++ '=' :: b₁))
    (operatorToken c (w ++ '=' :: b₂)) := by
  intro hle
  have hle : run isOperatorChar (w ++ '=' :: b₁) ≤ w.length := hle
  have hrun : run isOperatorChar (w ++ '=' :: b₂) = run isOperatorChar (w ++ '=' :: b₁) :=
    run_keeps w b₁ b₂ isOperatorChar hle
  simp only [operatorToken]
  rw [hrun, List.take_append_of_le_length hle, List.take_append_of_le_length hle]

/-- The token of a run of operator characters. -/
def Munched.ofOperator (o : TokenKind × Nat) : Munched :=
  .token o.1 o.2

theorem munchOperator_keeps (c : Char) :
    Keeps Munched.tail w.length (.ofOperator (operatorToken c (w ++ '=' :: b₁)))
      (.ofOperator (operatorToken c (w ++ '=' :: b₂))) :=
  (operatorToken_keeps w c).map id

theorem munchSlash_star (rest : List Char) : munchSlash ('*' :: rest) =
    match commentTail 1 rest with
    | some n => if n < (operatorToken '/' ('*' :: rest)).2
      then .ofOperator (operatorToken '/' ('*' :: rest)) else .token .blockComment n
    | none => if (operatorToken '/' ('*' :: rest)).2 = ('*' :: rest).length
      then .ofOperator (operatorToken '/' ('*' :: rest)) else .nothing :=
  rfl

theorem munchSlash_other {c : Char} (hslash : c ≠ '/') (hstar : c ≠ '*') (cs : List Char) :
    munchSlash (c :: cs) = .ofOperator (operatorToken '/' (c :: cs)) := by
  unfold munchSlash
  split
  · next heq => exact absurd (List.cons.inj heq).1 hslash
  · next heq => exact absurd (List.cons.inj heq).1 hstar
  · rfl

/-- A comment, or an operator that is longer. -/
theorem munchSlash_star_keeps (rest : List Char) (hgap₁ : ∀ c ∈ gap₁, isGap c = true)
    (hgap₂ : ∀ c ∈ gap₂, isGap c = true) (hends : EndsOperator (gap₂ ++ behind)) :
    Keeps Munched.tail (rest.length + 1) (munchSlash ('*' :: (rest ++ '=' :: (gap₁ ++ behind))))
      (munchSlash ('*' :: (rest ++ '=' :: (gap₂ ++ behind)))) := by
  have hop := @operatorToken_keeps ('*' :: rest) (gap₁ ++ behind) (gap₂ ++ behind) '/'
  have htail := commentTail_keeps rest behind hgap₁ hgap₂ 1
  have hshort : (operatorToken '/' ('*' :: (rest ++ '=' :: (gap₂ ++ behind)))).2
      < ('*' :: (rest ++ '=' :: (gap₂ ++ behind))).length := by
    have hlt := run_lt_of_endsOperator ('*' :: rest ++ ['=']) hends
    rwa [List.append_assoc] at hlt
  rw [munchSlash_star, munchSlash_star]
  simp only [List.cons_append, List.length_cons] at hop hshort ⊢
  generalize operatorToken '/' ('*' :: (rest ++ '=' :: (gap₁ ++ behind))) = op₁ at hop ⊢
  generalize operatorToken '/' ('*' :: (rest ++ '=' :: (gap₂ ++ behind)))
    = op₂ at hop hshort ⊢
  generalize commentTail 1 (rest ++ '=' :: (gap₁ ++ behind)) = n₁ at htail ⊢
  generalize commentTail 1 (rest ++ '=' :: (gap₂ ++ behind)) = n₂ at htail ⊢
  cases n₁ with
  | some n =>
    intro hle
    dsimp only at hle ⊢
    -- neither the comment nor the operator goes beyond the equals sign
    have hboth : n ≤ 1 + rest.length ∧ op₁.2 ≤ rest.length + 1 := by
      split at hle
      · have hle : op₁.2 ≤ rest.length + 1 := hle
        omega
      · have hle : n ≤ rest.length + 1 := hle
        omega
    rw [htail hboth.1, hop hboth.2]
  | none =>
    intro hle
    rw [htail (Nat.zero_le _)]
    dsimp only at hle ⊢
    rw [if_neg (Nat.ne_of_lt hshort)]
    split at hle
    · next hall =>
      have hle : op₁.2 ≤ rest.length + 1 := hle
      rw [hall, List.length_append, List.length_cons] at hle
      omega
    · next hlong => rw [if_neg hlong]

theorem munchSlash_keeps (hgap₁ : ∀ c ∈ gap₁, isGap c = true)
    (hgap₂ : ∀ c ∈ gap₂, isGap c = true) (hends : EndsOperator (gap₂ ++ behind)) :
    Keeps Munched.tail w.length (munchSlash (w ++ '=' :: (gap₁ ++ behind)))
      (munchSlash (w ++ '=' :: (gap₂ ++ behind))) := by
  match w with
  | [] =>
    rw [List.nil_append, List.nil_append, munchSlash_other (by decide) (by decide),
      munchSlash_other (by decide) (by decide)]
    exact munchOperator_keeps [] '/'
  | c :: rest =>
    rw [List.cons_append, List.cons_append]
    by_cases hslash : c = '/'
    · subst hslash
      exact (run_keeps rest _ _ (· != '\n')).map (f := fun n => Munched.token .lineComment (1 + n))
        fun hle => by simpa [Munched.tail, Nat.add_comm 1] using hle
    by_cases hstar : c = '*'
    · subst hstar
      exact munchSlash_star_keeps behind rest hgap₁ hgap₂ hends
    · rw [munchSlash_other hslash hstar, munchSlash_other hslash hstar]
      exact munchOperator_keeps (c :: rest) '/'

theorem munchAngle_angles (rest : List Char) : munchAngle ('<' :: '<' :: rest) =
    if (operatorToken '<' ('<' :: '<' :: rest)).2 = 2 then
      match heredocOpening rest with
      | .opens label n => .heredoc label (2 + n)
      | .broken => .nothing
      | .absent => .ofOperator (operatorToken '<' ('<' :: '<' :: rest))
    else .ofOperator (operatorToken '<' ('<' :: '<' :: rest)) :=
  rfl

theorem munchAngle_other {cs : List Char} (h : ∀ rest, cs ≠ '<' :: '<' :: rest) :
    munchAngle cs = .ofOperator (operatorToken '<' cs) := by
  rcases hop : operatorToken '<' cs with ⟨kind, ops⟩
  unfold munchAngle
  rw [hop]
  dsimp only
  split
  · next rest => exact absurd rfl (h rest)
  · rfl

theorem not_angles (b : List Char) (h : ¬∃ rest, w = '<' :: '<' :: rest) :
    ∀ rest, w ++ '=' :: b ≠ '<' :: '<' :: rest := by
  intro rest heq
  match w with
  | [] => exact absurd (List.cons.inj heq).1 (by decide)
  | [c] => exact absurd (List.cons.inj (List.cons.inj heq).2).1 (by decide)
  | c :: d :: w =>
    obtain ⟨hc, heq⟩ := List.cons.inj heq
    exact h ⟨w, by rw [hc, (List.cons.inj heq).1]⟩

theorem munchAngle_keeps : Keeps Munched.tail w.length (munchAngle (w ++ '=' :: b₁))
    (munchAngle (w ++ '=' :: b₂)) := by
  by_cases h : ∃ rest, w = '<' :: '<' :: rest
  · obtain ⟨rest, rfl⟩ := h
    have hop := @operatorToken_keeps ('<' :: '<' :: rest) b₁ b₂ '<'
    simp only [List.cons_append] at hop ⊢
    rw [munchAngle_angles, munchAngle_angles, heredocOpening_before, heredocOpening_before]
    by_cases hshort : (operatorToken '<' ('<' :: '<' :: (rest ++ '=' :: b₁))).2
        ≤ ('<' :: '<' :: rest).length
    · rw [hop hshort]
      exact .of_eq rfl
    · have hne : (operatorToken '<' ('<' :: '<' :: (rest ++ '=' :: b₁))).2 ≠ 2 := by
        simp only [List.length_cons] at hshort
        omega
      rw [if_neg hne]
      exact .of_lt (Nat.lt_of_not_le hshort)
  · rw [munchAngle_other (not_angles w b₁ h), munchAngle_other (not_angles w b₂ h)]
    exact munchOperator_keeps w '<'

theorem munchWord_before (c : Char) (b : List Char) :
    munchWord c (w ++ '=' :: b) = munchWord c w := by
  simp only [munchWord]
  rw [run_before w b (by decide), drop_run_before, segments_before, head?_before _ b (by decide),
    take_run_before]

theorem munch_dot (cs : List Char) : munch '.' cs =
    if 0 < fraction ('.' :: cs) then .token .number (fraction ('.' :: cs) - 1)
    else if ['.', '.'].isPrefixOf cs then .token (.mark .ellipsis) 2
      else .token (.mark .dot) 0 := by
  by_cases hnumber : 0 < fraction ('.' :: cs)
  · exact (if_pos hnumber).trans (if_pos hnumber).symm
  rw [if_neg hnumber]
  refine (if_neg hnumber).trans ?_
  split
  · rfl
  · next hne =>
    rw [if_neg]
    intro hpoints
    obtain ⟨rest, rfl⟩ := List.isPrefixOf_iff_prefix.1 hpoints
    exact hne rest rfl

theorem munch_dot_before (b : List Char) : munch '.' (w ++ '=' :: b) = munch '.' w := by
  rw [munch_dot, munch_dot, isPrefixOf_before w b (by decide)]
  have hfraction : fraction ('.' :: (w ++ '=' :: b)) = fraction ('.' :: w) :=
    fraction_before ('.' :: w) b
  rw [hfraction]

/-- A quoted text, if its delimiter was found. -/
def Munched.ofQuoted : Option Nat → Munched
  | some n => .token .quoted n
  | none => .nothing

/-- **A token that stops in front of the equals sign** is the longest one in both texts. -/
theorem munch_keeps (c : Char) (hgap₁ : ∀ d ∈ gap₁, isGap d = true)
    (hgap₂ : ∀ d ∈ gap₂, isGap d = true) (hends : EndsOperator (gap₂ ++ behind)) :
    Keeps Munched.tail w.length (munch c (w ++ '=' :: (gap₁ ++ behind)))
      (munch c (w ++ '=' :: (gap₂ ++ behind))) := by
  have hslash := munchSlash_keeps w behind hgap₁ hgap₂ hends
  have hquoted (quote : Char) (hgap : isGap quote = false) (hequals : quote ≠ '=')
      (hback : quote ≠ '\\') :
      Keeps found w.length (quotedTail quote 0 (w ++ '=' :: (gap₁ ++ behind)))
        (quotedTail quote 0 (w ++ '=' :: (gap₂ ++ behind))) := by
    simpa only [Nat.zero_add] using quotedTail_keeps w behind hgap hequals hback hgap₁ hgap₂ 0
  have hbacktick : Keeps found w.length (backtickTail 0 (w ++ '=' :: (gap₁ ++ behind)))
      (backtickTail 0 (w ++ '=' :: (gap₂ ++ behind))) := by
    simpa only [Nat.zero_add] using backtickTail_keeps w behind hgap₁ hgap₂ 0
  have hlength (n : Option Nat) (h : (Munched.ofQuoted n).tail ≤ w.length) :
      found n ≤ w.length := by
    cases n with
    | none => exact Nat.zero_le _
    | some n => exact h
  generalize gap₁ ++ behind = b₁ at hslash hquoted hbacktick ⊢
  generalize gap₂ ++ behind = b₂ at hslash hquoted hbacktick ⊢
  unfold munch
  split
  · exact .of_eq (by rw [munchWord_before, munchWord_before])
  split
  · exact .of_eq (by rw [numberTail_before, numberTail_before])
  split
  case h_9 =>
    -- a colon
    exact .of_eq (by rw [head?_before w b₁ (by decide), head?_before w b₂ (by decide)])
  case h_10 =>
    -- a separator
    have hsegments (b : List Char) : segments ('\\' :: (w ++ '=' :: b)) = segments ('\\' :: w) :=
      segments_before ('\\' :: w) b
    exact .of_eq (by rw [hsegments, hsegments])
  case h_11 =>
    -- a dollar sign
    match w with
    | [] => exact .of_eq rfl
    | d :: rest =>
      simp only [List.cons_append]
      exact .of_eq (by rw [run_before rest b₁ (by decide), run_before rest b₂ (by decide)])
  case h_12 => exact .of_eq ((munch_dot_before w b₂).trans (munch_dot_before w b₁).symm)
  case h_13 =>
    -- a hash sign
    rw [head?_before w b₁ (by decide), head?_before w b₂ (by decide)]
    split
    · exact .of_eq rfl
    · exact (run_keeps w b₁ b₂ (· != '\n')).map (f := Munched.token .lineComment) id
  case h_14 => exact hslash
  case h_15 => exact munchAngle_keeps w
  case h_16 =>
    exact (hquoted '\'' rfl (by decide) (by decide)).map (f := Munched.ofQuoted) (hlength _)
  case h_17 =>
    exact (hquoted '"' rfl (by decide) (by decide)).map (f := Munched.ofQuoted) (hlength _)
  case h_18 => exact hbacktick.map (f := Munched.ofQuoted) (hlength _)
  case h_19 =>
    -- all other characters
    split
    · exact munchOperator_keeps w c
    · exact .of_eq rfl
  all_goals exact .of_eq rfl

end Munch

/-! ### One step -/

section Piece

variable (w behind : List Char) {b₁ b₂ gap₁ gap₂ : List Char}

theorem openTagLength?_tag {p : Char} (hp : p ≠ '=') (h q : Char) (rest : List Char) :
    openTagLength? ('<' :: '?' :: p :: h :: q :: rest) =
      if p.toLower == 'p' && h.toLower == 'h' && q.toLower == 'p' then
        match rest with
        | [] => some 5
        | c :: _ => if Text.isBlank c then some 6 else none
      else none := by
  cases rest with
  | nil => exact openTagLength?.eq_2 p h q hp
  | cons c rest => exact openTagLength?.eq_3 p h q c rest hp

theorem openTagLength?_other {cs : List Char} (h : ∀ v, cs ≠ '<' :: '?' :: v) :
    openTagLength? cs = none :=
  openTagLength?.eq_4 cs (fun v => h ('=' :: v)) fun p q r v => h (p :: q :: r :: v)

/-- No opening tag goes on behind the equals sign. -/
theorem openTagLength?_before (c : Char) (b : List Char) :
    openTagLength? (c :: (w ++ '=' :: b)) = openTagLength? (c :: (w ++ ['='])) := by
  have hh : ('='.toLower == 'h') = false := by decide
  have hq : ('='.toLower == 'p') = false := by decide
  by_cases hw : ∃ v, c :: w = '<' :: '?' :: v
  · obtain ⟨v, hv⟩ := hw
    obtain ⟨rfl, rfl⟩ := List.cons.inj hv
    cases v with
    | nil => rfl
    | cons p v =>
      by_cases hp : p = '='
      · subst hp
        rfl
      rcases v with _ | ⟨h, _ | ⟨q, v⟩⟩
      · cases b with
        | nil => rfl
        | cons d b =>
          simp only [List.cons_append, List.nil_append]
          rw [openTagLength?_tag hp, hh, Bool.and_false, Bool.false_and,
            if_neg Bool.false_ne_true]
          have hshort : openTagLength? ['<', '?', p, '='] = none :=
            openTagLength?.eq_4 _ (fun v heq => hp (by cases heq; rfl)) (by simp)
          exact hshort.symm
      · simp only [List.cons_append, List.nil_append]
        rw [openTagLength?_tag hp, openTagLength?_tag hp, hq, Bool.and_false,
          if_neg Bool.false_ne_true, if_neg Bool.false_ne_true]
      · simp only [List.cons_append]
        rw [openTagLength?_tag hp, openTagLength?_tag hp]
        cases v with
        | nil => rfl
        | cons d v => rfl
  · have hother (b : List Char) : ∀ v, c :: (w ++ '=' :: b) ≠ '<' :: '?' :: v := by
      intro v heq
      obtain ⟨hc, heq⟩ := List.cons.inj heq
      cases w with
      | nil => exact absurd (List.cons.inj heq).1 (by decide)
      | cons d w => exact hw ⟨w, by rw [hc, (List.cons.inj heq).1]⟩
    rw [openTagLength?_other (hother b), openTagLength?_other (hother [])]

theorem htmlRun_keeps (seen : Nat) :
    Keeps id (seen + w.length) (htmlRun seen (w ++ '=' :: b₁))
      (htmlRun seen (w ++ '=' :: b₂)) := by
  induction seen, w using htmlRun.induct with
  | case1 seen cs => exact .of_eq rfl
  | case2 seen =>
    have hlt : seen < htmlRun seen ('=' :: b₁) := by
      have heq : htmlRun seen ('=' :: b₁) = htmlRun (seen + 1) b₁ := rfl
      rw [heq, htmlRun_eq]
      omega
    exact .of_lt hlt
  | case3 seen c cs hc ih =>
    have hne (b : List Char) : ∀ tail, c = '<' → cs ++ '=' :: b = '?' :: tail → False := by
      intro tail hopen hmark
      cases cs with
      | nil => exact absurd (List.cons.inj hmark).1 (by decide)
      | cons d ds => exact hc ds hopen (by rw [(List.cons.inj hmark).1])
    rw [List.cons_append, List.cons_append, htmlRun.eq_3 _ _ _ (hne _), htmlRun.eq_3 _ _ _ (hne _),
      List.length_cons, Nat.add_comm cs.length, ← Nat.add_assoc]
    exact ih

theorem htmlPiece_keeps (c : Char) :
    Keeps Piece.tail w.length (htmlPiece c (w ++ '=' :: b₁))
      (htmlPiece c (w ++ '=' :: b₂)) := by
  have hrun := @htmlRun_keeps w b₁ b₂ 0
  rw [Nat.zero_add] at hrun
  unfold htmlPiece
  rw [openTagLength?_before w c b₁, openTagLength?_before w c b₂,
    head?_before w b₁ (by decide), head?_before w b₂ (by decide)]
  split
  · exact .of_eq rfl
  split
  · exact .of_eq rfl
  · exact hrun.map (f := fun n => Piece.mk .inlineHtml n 0 .html none) id

/-- The label of a heredoc lies in front of the equals sign. -/
theorem munch_heredoc {c : Char} {b label : List Char} {n : Nat}
    (h : munch c (w ++ '=' :: b) = .heredoc label n) : n ≤ w.length ∧ '=' ∉ label := by
  obtain ⟨rest, k, rfl, hangles, hopens, rfl⟩ := munch_eq_heredoc h
  obtain ⟨w, rfl⟩ : ∃ w', w = '<' :: '<' :: w' := by
    by_contra hw
    exact not_angles w b hw rest hangles
  obtain rfl : w ++ '=' :: b = rest := by simpa using hangles
  rw [heredocOpening_before] at hopens
  obtain ⟨hle, hlabel⟩ := heredocOpening_label hopens
  refine ⟨?_, hlabel⟩
  rw [List.length_cons, List.length_cons]
  omega

theorem drop_before {n : Nat} (hn : n ≤ w.length) (b : List Char) :
    (w ++ '=' :: b).drop n = w.drop n ++ '=' :: b :=
  List.drop_append_of_le_length hn

theorem phpPiece_closeTag {c : Char} {n : Nat} (hn : n ≤ w.length) {b : List Char}
    (h : munch c (w ++ '=' :: b) = .token .closeTag n) :
    phpPiece c (w ++ '=' :: b) = { kind := .closeTag, tail := n, mode := .html
                                   skipped := if (w.drop n).head? == some '\n' then 1 else 0 } := by
  rw [phpPiece, h]
  dsimp only
  rw [drop_before w hn, head?_before _ b (by decide)]

theorem phpPiece_heredoc {c : Char} {label : List Char} {n : Nat} (hn : n ≤ w.length)
    {b : List Char} (h : munch c (w ++ '=' :: b) = .heredoc label n) :
    phpPiece c (w ++ '=' :: b) = match heredocBody? label 0 (w.drop n ++ '=' :: b) with
      | some m => { kind := .heredoc, tail := n + m, mode := .php }
      | none =>
        { kind := .heredoc, tail := (w ++ '=' :: b).length, mode := .php
          fault := some (.unterminatedHeredoc (String.ofList label)) } := by
  rw [phpPiece]
  cases hbody : heredocBody? label 0 (w.drop n ++ '=' :: b)
    <;> simp only [h, drop_before w hn, hbody]

theorem phpPiece_keeps (c : Char) (hgap₁ : ∀ d ∈ gap₁, isGap d = true)
    (hgap₂ : ∀ d ∈ gap₂, isGap d = true) (hends : EndsOperator (gap₂ ++ behind)) :
    Keeps Piece.tail w.length (phpPiece c (w ++ '=' :: (gap₁ ++ behind)))
      (phpPiece c (w ++ '=' :: (gap₂ ++ behind))) := by
  have hmunch := munch_keeps w behind c hgap₁ hgap₂ hends
  generalize gap₁ ++ behind = b₁ at hmunch ⊢
  generalize gap₂ ++ behind = b₂ at hmunch ⊢
  intro hle
  cases hm : munch c (w ++ '=' :: b₁) with
  | token kind n =>
    have htail : (phpPiece c (w ++ '=' :: b₁)).tail = n := by
      rw [phpPiece, hm]
      cases kind <;> rfl
    rw [htail] at hle
    rw [hm] at hmunch
    by_cases hkind : kind = .closeTag
    · subst hkind
      rw [phpPiece_closeTag w hle (hmunch hle), phpPiece_closeTag w hle hm]
    · rw [phpPiece_of_munch (hmunch hle) hkind, phpPiece_of_munch hm hkind]
  | heredoc label n =>
    obtain ⟨hn, hlabel⟩ := munch_heredoc w hm
    rw [hm] at hmunch
    rw [phpPiece_heredoc w hn hm] at hle ⊢
    rw [phpPiece_heredoc w hn (hmunch hn)]
    cases hbody : heredocBody? label 0 (w.drop n) with
    | some m => rw [heredocBody?_of_some b₁ hlabel hbody, heredocBody?_of_some b₂ hlabel hbody]
    | none =>
      refine absurd hle (Nat.not_le_of_lt ?_)
      cases hlong : heredocBody? label 0 (w.drop n ++ '=' :: b₁) with
      | some m =>
        have hlt := lt_of_heredocBody? b₁ hlabel hbody hlong
        rw [List.length_drop] at hlt
        show w.length < n + m
        omega
      | none =>
        show w.length < (w ++ '=' :: b₁).length
        rw [List.length_append, List.length_cons]
        omega
  | nothing =>
    rw [hm] at hmunch
    rw [phpPiece, phpPiece, hmunch (Nat.zero_le _), hm]

/-- **A step that stops in front of the equals sign** is made in both texts. -/
theorem piece_keeps (mode : Mode) (c : Char) (hgap₁ : ∀ d ∈ gap₁, isGap d = true)
    (hgap₂ : ∀ d ∈ gap₂, isGap d = true) (hends : EndsOperator (gap₂ ++ behind)) :
    Keeps Piece.tail w.length (piece mode c (w ++ '=' :: (gap₁ ++ behind)))
      (piece mode c (w ++ '=' :: (gap₂ ++ behind))) := by
  cases mode with
  | html => exact htmlPiece_keeps w c
  | php => exact phpPiece_keeps w behind c hgap₁ hgap₂ hends

end Piece

end PhpHandbook.Source
