import Mathlib.Data.List.TakeWhile
import PhpHandbook.DocBlock.Lexeme

/-!
# The lengths of words, numbers and quoted texts

A lexeme is the longest one at its place.  So it is read again from another text if its length is
the same there.  Two properties of the lengths that words and numbers are measured by carry this.  A
length does not change when a text that stands *apart* is put behind (`run_append` and the lemmas
named after it), and it is reached again by the text that it cuts off (`run_take` and the lemmas
named after it).

## Main definitions

* `Apart`: a text that no word and no number goes on into.
* `basedLength`, `pointedLength`, `poweredLength`: the parts that numbers are measured by.

## Main statements

* `identifierTail_append`, `identifierTail_take`: words.
* `number?_spec`: numbers.
* `quotedTail_append`, `quotedTail_take`: quoted texts, which end by themselves.
-/

namespace PhpHandbook.DocBlock

open Source (isNameStart isNamePart isDigitPart)
open Text (run isHexDigit isBinaryDigit)

/-! ### Texts that stand apart -/

/-- Characters that may belong to the word or the number in front of them. -/
def extendsWord (c : Char) : Bool :=
  isIdentifierPart c || c == '\\' || c == '.' || c == '+'

/-- A text that **no word and no number goes on into**. -/
def Apart (rest : List Char) : Prop :=
  ∀ c, rest.head? = some c → extendsWord c = false

theorem apart_nil : Apart [] := by
  intro c hc
  cases hc

theorem apart_cons {c : Char} (hc : extendsWord c = false) (rest : List Char) :
    Apart (c :: rest) := by
  intro d hd
  cases hd
  exact hc

variable {cs ds rest : List Char}

/-- A text that stands apart does not begin with a character that extends words. -/
theorem Apart.head (h : Apart rest) {p : Char → Bool}
    (hp : ∀ c, p c = true → extendsWord c = true) :
    ∀ c, rest.head? = some c → p c = false := by
  intro c hc
  by_contra hpc
  have hextends := hp c (by simpa using hpc)
  rw [h c hc] at hextends
  cases hextends

theorem Apart.ne {c d : Char} (h : Apart (c :: rest)) (hd : extendsWord d = true) : c ≠ d := by
  rintro rfl
  rw [h c rfl] at hd
  cases hd

theorem extendsWord_of_isNamePart (c : Char) (hc : isNamePart c = true) : extendsWord c = true := by
  simp [extendsWord, isIdentifierPart, hc]

theorem extendsWord_of_isIdentifierPart (c : Char) (hc : isIdentifierPart c = true) :
    extendsWord c = true := by
  simp [extendsWord, hc]

theorem extendsWord_of_isDigit (c : Char) (hc : c.isDigit = true) : extendsWord c = true :=
  extendsWord_of_isNamePart c (by simp [isNamePart, hc])

theorem extendsWord_of_isDigitPart (c : Char) (hc : isDigitPart c = true) :
    extendsWord c = true := by
  refine extendsWord_of_isNamePart c ?_
  simp only [isDigitPart, Bool.or_eq_true] at hc
  rcases hc with hc | hc
  · simp [isNamePart, hc]
  · simp [isNamePart, isNameStart, hc]

theorem extendsWord_of_isHexDigit (c : Char) (hc : (isHexDigit c || c == '_') = true) :
    extendsWord c = true := by
  refine extendsWord_of_isNamePart c ?_
  simp only [isHexDigit, Bool.or_eq_true, Bool.and_eq_true, decide_eq_true_eq, Char.le_def] at hc
  have hlower (h : 'a'.val ≤ c.val ∧ c.val ≤ 'z'.val) : c.isAlpha = true :=
    Bool.or_eq_true_iff.2
      (.inr (Bool.and_eq_true_iff.2 ⟨decide_eq_true h.1, decide_eq_true h.2⟩))
  have hupper (h : 'A'.val ≤ c.val ∧ c.val ≤ 'Z'.val) : c.isAlpha = true :=
    Bool.or_eq_true_iff.2 (.inl (decide_eq_true h))
  have hsmall : 'f'.val ≤ 'z'.val := by decide
  have hcapital : 'F'.val ≤ 'Z'.val := by decide
  simp only [isNamePart, isNameStart, Bool.or_eq_true]
  rcases hc with ((hc | hc) | hc) | hc
  · exact .inr hc
  · exact .inl (.inl (.inl (hlower ⟨hc.1, UInt32.le_trans hc.2 hsmall⟩)))
  · exact .inl (.inl (.inl (hupper ⟨hc.1, UInt32.le_trans hc.2 hcapital⟩)))
  · exact .inl (.inl (.inr hc))

theorem extendsWord_of_isBinaryDigit (c : Char) (hc : (isBinaryDigit c || c == '_') = true) :
    extendsWord c = true := by
  simp only [isBinaryDigit, Bool.or_eq_true, beq_iff_eq] at hc
  rcases hc with (rfl | rfl) | rfl <;> rfl

/-! ### Runs -/

theorem run_le (p : Char → Bool) (cs : List Char) : run p cs ≤ cs.length :=
  (List.takeWhile_prefix p).length_le

theorem run_append {p : Char → Bool} (hrest : ∀ c, rest.head? = some c → p c = false)
    (ds : List Char) : run p (ds ++ rest) = run p ds := by
  induction ds with
  | nil =>
    cases rest with
    | nil => rfl
    | cons c rest => simp [run, hrest c rfl]
  | cons d ds ih =>
    simp only [run, List.cons_append, List.takeWhile_cons] at ih ⊢
    split
    · simpa using ih
    · rfl

theorem run_mono (p : Char → Bool) (ds rest : List Char) : run p ds ≤ run p (ds ++ rest) := by
  rw [run, run, List.takeWhile_append]
  split_ifs with h
  · rw [h, List.length_append]
    omega
  · rfl

theorem run_take (p : Char → Bool) (cs : List Char) : run p (cs.take (run p cs)) = run p cs := by
  rw [Text.take_run, run, List.takeWhile_idem]
  rfl

theorem drop_run_append (p : Char → Bool) (ds rest : List Char) :
    (ds ++ rest).drop (run p ds) = ds.drop (run p ds) ++ rest :=
  List.drop_append_of_le_length (run_le p ds)

/-! ### Words -/

theorem identifierSegments_cons {c : Char} (hc : isNameStart c = true) (cs : List Char) :
    identifierSegments ('\\' :: c :: cs) = 2 + identifierTail cs := by
  rw [identifierSegments, if_pos hc]
  exact Nat.add_assoc _ _ _

theorem identifierTail_append_of {ds : List Char} (h : Apart rest)
    (hsegments : identifierSegments (ds.drop (run isIdentifierPart ds) ++ rest)
      = identifierSegments (ds.drop (run isIdentifierPart ds))) :
    identifierTail (ds ++ rest) = identifierTail ds := by
  rw [identifierTail, identifierTail, run_append (h.head extendsWord_of_isIdentifierPart),
    drop_run_append, hsegments]

theorem identifierSegments_append (h : Apart rest) (ds : List Char) :
    identifierSegments (ds ++ rest) = identifierSegments ds := by
  induction ds using identifierSegments.induct with
  | case1 c cs hc n ih =>
    rw [List.cons_append, List.cons_append, identifierSegments_cons hc, identifierSegments_cons hc,
      identifierTail_append_of h ih]
  | case2 c cs hc => simp [identifierSegments, hc]
  | case3 ds hds =>
    rw [identifierSegments.eq_2 ds hds]
    -- only a separator at the end of `ds` could go on in what follows, and no name starts there
    match ds, rest with
    | [], [] => exact identifierSegments.eq_2 _ hds
    | [], r :: rest =>
      refine identifierSegments.eq_2 _ fun c cs hcs => ?_
      have hr := h r rfl
      rw [(List.cons.inj hcs).1] at hr
      cases hr
    | [d], [] => exact identifierSegments.eq_2 _ hds
    | [d], r :: rest =>
      by_cases hd : d = '\\'
      · have hr : isNameStart r = false :=
          h.head (fun c hc => extendsWord_of_isNamePart c (by simp [isNamePart, hc])) r rfl
        simp [hd, identifierSegments, hr]
      · exact identifierSegments.eq_2 _ fun c cs hcs => hd (List.cons.inj hcs).1
    | d :: e :: ds, rest =>
      exact identifierSegments.eq_2 _ fun c cs hcs => hds e ds (by rw [(List.cons.inj hcs).1])

theorem identifierTail_append (h : Apart rest) (ds : List Char) :
    identifierTail (ds ++ rest) = identifierTail ds :=
  identifierTail_append_of h (identifierSegments_append h _)

theorem identifierSegments_le (cs : List Char) : identifierSegments cs ≤ cs.length := by
  induction cs using identifierSegments.induct with
  | case1 c cs hc n ih =>
    have hrun := run_le isIdentifierPart cs
    have hsegments : identifierSegments (cs.drop (run isIdentifierPart cs)) ≤ _ := ih
    rw [List.length_drop] at hsegments
    rw [identifierSegments_cons hc, identifierTail, List.length_cons, List.length_cons]
    omega
  | case2 c cs hc => simp [identifierSegments, hc]
  | case3 ds hds => simp [identifierSegments.eq_2 ds hds]

theorem identifierTail_le (cs : List Char) : identifierTail cs ≤ cs.length := by
  have hrun := run_le isIdentifierPart cs
  have hsegments := identifierSegments_le (cs.drop (run isIdentifierPart cs))
  rw [List.length_drop] at hsegments
  rw [identifierTail]
  omega

/-- The further segments of an identifier begin with a separator. -/
theorem head?_take_identifierSegments (cs : List Char) :
    ∀ c, (cs.take (identifierSegments cs)).head? = some c → isIdentifierPart c = false := by
  intro c hc
  by_cases hcs : ∃ d ds, cs = '\\' :: d :: ds
  · obtain ⟨d, ds, rfl⟩ := hcs
    cases hseg : identifierSegments ('\\' :: d :: ds) with
    | zero => simp [hseg] at hc
    | succ n =>
      obtain rfl : '\\' = c := by simpa [hseg] using hc
      rfl
  · rw [identifierSegments.eq_2 cs fun d ds h => hcs ⟨d, ds, h⟩] at hc
    simp at hc

theorem identifierTail_take_of {cs : List Char}
    (hsegments : ∀ ds, ds = cs.drop (run isIdentifierPart cs) →
      identifierSegments (ds.take (identifierSegments ds)) = identifierSegments ds) :
    identifierTail (cs.take (identifierTail cs)) = identifierTail cs := by
  have hhead := head?_take_identifierSegments (cs.drop (run isIdentifierPart cs))
  have hlength : (cs.take (run isIdentifierPart cs)).length = run isIdentifierPart cs :=
    List.length_take_of_le (run_le _ cs)
  simp only [identifierTail]
  rw [List.take_add, run_append hhead, run_take, List.drop_left' hlength, hsegments _ rfl]

theorem identifierSegments_take (cs : List Char) :
    identifierSegments (cs.take (identifierSegments cs)) = identifierSegments cs := by
  induction cs using identifierSegments.induct with
  | case1 c cs hc n ih =>
    rw [identifierSegments_cons hc, Nat.add_comm, List.take_succ_cons, List.take_succ_cons,
      identifierSegments_cons hc, identifierTail_take_of fun ds hds => hds ▸ ih, Nat.add_comm]
  | case2 c cs hc => simp [identifierSegments, hc]
  | case3 ds hds => simp [identifierSegments.eq_2 ds hds, identifierSegments]

theorem identifierTail_take (cs : List Char) :
    identifierTail (cs.take (identifierTail cs)) = identifierTail cs :=
  identifierTail_take_of fun ds _ => identifierSegments_take ds

/-! ### Numbers -/

theorem head?_any_append {p : Char → Bool} (hrest : ∀ c, rest.head? = some c → p c = false)
    (ds : List Char) : (ds ++ rest).head?.any p = ds.head?.any p := by
  cases ds with
  | nil =>
    cases rest with
    | nil => rfl
    | cons c rest => simp [hrest c rfl]
  | cons d ds => rfl

/-- The length of a number with a mark for its base, behind the mark. -/
def basedLength (p : Char → Bool) (cs : List Char) : Nat :=
  if cs.head?.any p then 2 + run (fun c => p c || c == '_') cs else 1

theorem integerLength_zero (b : Char) (cs : List Char) : integerLength ('0' :: b :: cs) =
    if b == 'x' || b == 'X' then basedLength isHexDigit cs
    else if b == 'b' || b == 'B' then basedLength isBinaryDigit cs
    else 1 + run isDigitPart (b :: cs) :=
  rfl

theorem basedLength_append {p : Char → Bool} (h : Apart rest)
    (hp : ∀ c, (p c || c == '_') = true → extendsWord c = true) (ds : List Char) :
    basedLength p (ds ++ rest) = basedLength p ds := by
  rw [basedLength, basedLength, run_append (h.head hp),
    head?_any_append (h.head fun c hc => hp c (by simp [hc]))]

theorem integerLength_cons {c : Char} {cs : List Char}
    (h : c = '0' → cs.head? = none) :
    integerLength (c :: cs) = if c.isDigit then 1 + run isDigitPart cs else 0 := by
  refine integerLength.eq_2 c cs ?_
  rintro b ds hc rfl
  cases h hc

theorem integerLength_append (h : Apart rest) (ds : List Char) :
    integerLength (ds ++ rest) = integerLength ds := by
  match ds with
  | [] =>
    cases rest with
    | nil => rfl
    | cons r rest =>
      have hr : r.isDigit = false := h.head extendsWord_of_isDigit r rfl
      rw [List.nil_append, integerLength_cons (by rintro rfl; cases hr)]
      simp [hr, integerLength]
  | [c] =>
    cases rest with
    | nil => rfl
    | cons r rest =>
      have hrun : run isDigitPart (r :: rest) = 0 :=
        run_append (h.head extendsWord_of_isDigitPart) []
      by_cases hc : c = '0'
      · subst hc
        have hx : (r == 'x' || r == 'X') = false := by
          simp [h.ne (d := 'x') rfl, h.ne (d := 'X') rfl]
        have hb : (r == 'b' || r == 'B') = false := by
          simp [h.ne (d := 'b') rfl, h.ne (d := 'B') rfl]
        rw [List.singleton_append, integerLength_zero, hx, hb, hrun]
        rfl
      · rw [List.singleton_append, integerLength_cons (absurd · hc),
          integerLength_cons (absurd · hc), hrun]
        rfl
  | c :: d :: ds =>
    by_cases hc : c = '0'
    · subst hc
      rw [List.cons_append, List.cons_append, integerLength_zero, integerLength_zero,
        basedLength_append h extendsWord_of_isHexDigit,
        basedLength_append h extendsWord_of_isBinaryDigit, ← List.cons_append,
        run_append (h.head extendsWord_of_isDigitPart)]
    · rw [List.cons_append, integerLength_cons (absurd · hc), integerLength_cons (absurd · hc),
        run_append (h.head extendsWord_of_isDigitPart)]

theorem basedLength_mono (p : Char → Bool) (ds rest : List Char) :
    basedLength p ds ≤ basedLength p (ds ++ rest) := by
  have hrun := run_mono (fun c => p c || c == '_') ds rest
  unfold basedLength
  split_ifs with hds happend happend
  · omega
  · cases ds with
    | nil => simp at hds
    | cons d ds => exact absurd hds happend
  · omega
  · rfl

/-- The length of the sign in front of the digits of an exponent. -/
def signLength (cs : List Char) : Nat :=
  if cs.head? == some '+' || cs.head? == some '-' then 1 else 0

theorem exponent_cons (e : Char) (cs : List Char) : exponent (e :: cs) =
    if e == 'e' || e == 'E' then
      if run Char.isDigit (cs.drop (signLength cs)) == 0 then 0
      else 1 + signLength cs + run Char.isDigit (cs.drop (signLength cs))
    else 0 :=
  rfl

theorem signLength_append (h : Apart rest) (ds : List Char) :
    signLength (ds ++ rest) = signLength ds := by
  cases ds with
  | nil =>
    cases rest with
    | nil => rfl
    | cons r rest => simp [signLength, h.ne (d := '+') rfl, h.ne (d := '-') rfl]
  | cons d ds => rfl

theorem signLength_le (cs : List Char) : signLength cs ≤ cs.length := by
  cases cs with
  | nil => simp [signLength]
  | cons c cs =>
    rw [signLength]
    split
    · simp
    · simp

theorem exponent_append (h : Apart rest) (ds : List Char) :
    exponent (ds ++ rest) = exponent ds := by
  cases ds with
  | nil =>
    cases rest with
    | nil => rfl
    | cons r rest =>
      rw [List.nil_append, exponent_cons]
      simp [h.ne (d := 'e') rfl, h.ne (d := 'E') rfl, exponent]
  | cons e ds =>
    rw [List.cons_append, exponent_cons, exponent_cons, signLength_append h,
      List.drop_append_of_le_length (signLength_le ds), run_append (h.head extendsWord_of_isDigit)]

theorem exponent_le (cs : List Char) : exponent cs ≤ cs.length := by
  cases cs with
  | nil => simp [exponent]
  | cons e cs =>
    have hsign := signLength_le cs
    have hrun := run_le Char.isDigit (cs.drop (signLength cs))
    rw [List.length_drop] at hrun
    rw [exponent_cons, List.length_cons]
    split_ifs <;> omega

/-- An exponent begins with its mark. -/
theorem head?_take_exponent (cs : List Char) :
    ∀ c, (cs.take (exponent cs)).head? = some c → isDigitPart c = false := by
  intro c hc
  cases cs with
  | nil => simp at hc
  | cons e cs =>
    rw [exponent_cons] at hc
    split_ifs at hc with he
    · simp at hc
    · rw [Nat.add_assoc, Nat.add_comm, List.take_succ_cons] at hc
      obtain rfl : e = c := by simpa using hc
      simp only [Bool.or_eq_true, beq_iff_eq] at he
      rcases he with rfl | rfl <;> rfl
    · simp at hc

theorem exponent_take (cs : List Char) : exponent (cs.take (exponent cs)) = exponent cs := by
  cases cs with
  | nil => simp [exponent]
  | cons e cs =>
    rw [exponent_cons]
    split_ifs with he hdigits
    · simp [exponent]
    · rw [Nat.add_assoc, Nat.add_comm, List.take_succ_cons, exponent_cons, if_pos he]
      have hsign : signLength (cs.take (signLength cs + run Char.isDigit (cs.drop (signLength cs))))
          = signLength cs := by
        cases cs with
        | nil => rfl
        | cons c cs =>
          obtain ⟨n, hn⟩ : ∃ n, signLength (c :: cs)
              + run Char.isDigit ((c :: cs).drop (signLength (c :: cs))) = n + 1 :=
            Nat.exists_eq_succ_of_ne_zero (by simp at hdigits; omega)
          rw [hn]
          rfl
      rw [hsign, List.drop_take, Nat.add_sub_cancel_left, run_take, if_neg hdigits]
      omega
    · simp [exponent]

/-- The length of a number with a point, given its length up to the point. -/
def pointedLength (whole : Nat) : List Char → Nat
  | '.' :: rest =>
    let digits := run Char.isDigit rest
    if digits == 0 then 0 else whole + 1 + digits + exponent (rest.drop digits)
  | _ => 0

/-- The length of a number with an exponent and no point. -/
def poweredLength (cs : List Char) : Nat :=
  let grouped := if run Char.isDigit cs == 0 then 0 else run isDigitPart cs
  let power := exponent (cs.drop grouped)
  if grouped == 0 || power == 0 then 0 else grouped + power

theorem decimalLength_eq (cs : List Char) :
    decimalLength cs = max (pointedLength (run Char.isDigit cs) (cs.drop (run Char.isDigit cs)))
      (poweredLength cs) :=
  rfl

theorem pointedLength_append (h : Apart rest) (whole : Nat) (ds : List Char) :
    pointedLength whole (ds ++ rest) = pointedLength whole ds := by
  cases ds with
  | nil =>
    cases rest with
    | nil => rfl
    | cons r rest =>
      have hr := h.ne (d := '.') rfl
      simp [pointedLength, hr]
  | cons d ds =>
    by_cases hd : d = '.'
    · subst hd
      simp only [List.cons_append, pointedLength, run_append (h.head extendsWord_of_isDigit),
        drop_run_append, exponent_append h]
    · simp [pointedLength, hd]

theorem poweredLength_append (h : Apart rest) (ds : List Char) :
    poweredLength (ds ++ rest) = poweredLength ds := by
  have hgrouped : (if run Char.isDigit ds == 0 then 0 else run isDigitPart ds) ≤ ds.length := by
    have := run_le isDigitPart ds
    split_ifs <;> omega
  simp only [poweredLength, run_append (h.head extendsWord_of_isDigit),
    run_append (h.head extendsWord_of_isDigitPart), List.drop_append_of_le_length hgrouped,
    exponent_append h]

theorem decimalLength_append (h : Apart rest) (ds : List Char) :
    decimalLength (ds ++ rest) = decimalLength ds := by
  rw [decimalLength_eq, decimalLength_eq, run_append (h.head extendsWord_of_isDigit),
    drop_run_append, pointedLength_append h, poweredLength_append h]

theorem basedLength_le (p : Char → Bool) (cs : List Char) :
    basedLength p cs ≤ cs.length + 2 := by
  have hrun := run_le (fun c => p c || c == '_') cs
  unfold basedLength
  split_ifs <;> omega

theorem integerLength_le (cs : List Char) : integerLength cs ≤ cs.length := by
  match cs with
  | [] => rfl
  | [c] =>
    rw [integerLength_cons fun _ => rfl]
    split_ifs
    · rfl
    · simp
  | c :: d :: cs =>
    have hrun := run_le isDigitPart (d :: cs)
    have hhex := basedLength_le isHexDigit cs
    have hbinary := basedLength_le isBinaryDigit cs
    rw [List.length_cons] at hrun
    simp only [List.length_cons]
    by_cases hc : c = '0'
    · rw [hc, integerLength_zero]
      split_ifs <;> omega
    · rw [integerLength_cons (absurd · hc)]
      split_ifs <;> omega

theorem integerLength_pos {c : Char} (hc : c.isDigit = true) (cs : List Char) :
    1 ≤ integerLength (c :: cs) := by
  by_cases hzero : c = '0' → cs.head? = none
  · rw [integerLength_cons hzero, if_pos hc]
    omega
  · obtain ⟨rfl, hcs⟩ := Classical.not_imp.1 hzero
    cases cs with
    | nil => exact absurd rfl hcs
    | cons d cs =>
      rw [integerLength_zero, basedLength, basedLength]
      split_ifs <;> omega

theorem integerLength_mono (ds rest : List Char) :
    integerLength ds ≤ integerLength (ds ++ rest) := by
  match ds with
  | [] => exact Nat.zero_le _
  | [c] =>
    rw [integerLength_cons fun _ => rfl]
    by_cases hc : c.isDigit
    · rw [if_pos hc]
      exact integerLength_pos hc rest
    · rw [if_neg hc]
      exact Nat.zero_le _
  | c :: d :: ds =>
    by_cases hc : c = '0'
    · subst hc
      have hhex := basedLength_mono isHexDigit ds rest
      have hbinary := basedLength_mono isBinaryDigit ds rest
      have hrun := run_mono isDigitPart (d :: ds) rest
      rw [List.cons_append, List.cons_append, integerLength_zero, integerLength_zero,
        ← List.cons_append]
      split_ifs <;> omega
    · have hrun := run_mono isDigitPart (d :: ds) rest
      rw [List.cons_append, integerLength_cons (absurd · hc), integerLength_cons (absurd · hc)]
      split_ifs <;> omega

theorem basedLength_take {p : Char → Bool} {cs : List Char} (hcs : cs.head?.any p = true) :
    ∃ n, basedLength p cs = n + 2 ∧ basedLength p (cs.take n) = n + 2 := by
  refine ⟨run (fun c => p c || c == '_') cs, ?_, ?_⟩
  · rw [basedLength, if_pos hcs, Nat.add_comm]
  · cases cs with
    | nil => simp at hcs
    | cons c cs =>
      have hc : p c = true := by simpa using hcs
      have hpos :
          run (fun c => p c || c == '_') (c :: cs) = run (fun c => p c || c == '_') cs + 1 := by
        simp [run, hc]
      rw [basedLength, run_take, hpos, List.take_succ_cons, List.head?_cons, Option.any_some, hc,
        if_pos rfl, Nat.add_comm]

theorem integerLength_take_cons {c : Char} {cs : List Char} (h : c = '0' → cs.head? = none) :
    integerLength ((c :: cs).take (integerLength (c :: cs))) = integerLength (c :: cs) := by
  rw [integerLength_cons h]
  split_ifs with hc
  · rw [Nat.add_comm, List.take_succ_cons, integerLength_cons, if_pos hc, run_take, Nat.add_comm]
    intro hzero
    cases cs with
    | nil => rfl
    | cons d cs => cases h hzero
  · rfl

theorem integerLength_take_zero (b : Char) (cs : List Char) :
    integerLength (('0' :: b :: cs).take (integerLength ('0' :: b :: cs)))
      = integerLength ('0' :: b :: cs) := by
  rw [integerLength_zero]
  have hbased :
      ∀ p : Char → Bool, (∀ ds, integerLength ('0' :: b :: ds) = basedLength p ds) →
      integerLength (('0' :: b :: cs).take (basedLength p cs)) = basedLength p cs := by
    intro p hp
    by_cases hcs : cs.head?.any p = true
    · obtain ⟨n, hn, htake⟩ := basedLength_take hcs
      rw [hn, List.take_succ_cons, List.take_succ_cons, hp, htake]
    · rw [basedLength, if_neg hcs]
      rfl
  split_ifs with hx hb
  · exact hbased isHexDigit fun ds => by rw [integerLength_zero, if_pos hx]
  · exact hbased isBinaryDigit fun ds => by rw [integerLength_zero, if_neg hx, if_pos hb]
  · rw [Nat.add_comm, List.take_succ_cons]
    cases hrun : run isDigitPart (b :: cs) with
    | zero => rfl
    | succ n =>
      have htake := run_take isDigitPart (b :: cs)
      rw [hrun, List.take_succ_cons] at htake
      rw [List.take_succ_cons, integerLength_zero, if_neg hx, if_neg hb, htake, Nat.add_comm]

theorem integerLength_take (cs : List Char) :
    integerLength (cs.take (integerLength cs)) = integerLength cs := by
  match cs with
  | [] => rfl
  | [c] => exact integerLength_take_cons fun _ => rfl
  | c :: d :: cs =>
    by_cases hc : c = '0'
    · exact hc ▸ integerLength_take_zero d cs
    · exact integerLength_take_cons (absurd · hc)

theorem pointedLength_le (whole : Nat) (cs : List Char) :
    pointedLength whole cs ≤ whole + cs.length := by
  unfold pointedLength
  split
  · next rest =>
    have hrun := run_le Char.isDigit rest
    have hexponent := exponent_le (rest.drop (run Char.isDigit rest))
    rw [List.length_drop] at hexponent
    simp only [List.length_cons]
    split_ifs <;> omega
  · omega

theorem poweredLength_le (cs : List Char) : poweredLength cs ≤ cs.length := by
  have hrun := run_le isDigitPart cs
  have hexponent := exponent_le (cs.drop (run isDigitPart cs))
  rw [List.length_drop] at hexponent
  simp only [poweredLength]
  by_cases hdigits : run Char.isDigit cs = 0
  · simp [hdigits]
  · simp only [beq_iff_eq, hdigits, if_false]
    split_ifs <;> omega

theorem decimalLength_le (cs : List Char) : decimalLength cs ≤ cs.length := by
  have hrun := run_le Char.isDigit cs
  have hpointed := pointedLength_le (run Char.isDigit cs) (cs.drop (run Char.isDigit cs))
  have hpowered := poweredLength_le cs
  rw [List.length_drop] at hpointed
  rw [decimalLength_eq]
  omega

theorem take_add_run (p : Char → Bool) (cs : List Char) (n : Nat) :
    (cs.take (run p cs + n)).drop (run p cs) = (cs.drop (run p cs)).take n := by
  rw [List.drop_take, Nat.add_sub_cancel_left]

/-- A run ends where it ended, if what follows is cut off later and does not belong to it. -/
theorem run_take_add {p : Char → Bool} {cs : List Char} {n : Nat}
    (h : ∀ c, ((cs.drop (run p cs)).take n).head? = some c → p c = false) :
    run p (cs.take (run p cs + n)) = run p cs := by
  rw [List.take_add, run_append h, run_take]

theorem isDigit_of_isDigitPart {c : Char} (hc : isDigitPart c = false) : c.isDigit = false := by
  simp only [isDigitPart, Bool.or_eq_false_iff] at hc
  exact hc.1

/-- A number with a point is reached again by the text that it cuts off. -/
theorem pointedLength_take {whole : Nat} {cs : List Char} (h : pointedLength whole cs ≠ 0) :
    ∃ n, pointedLength whole cs = whole + (n + 1) ∧
      (cs.take (n + 1)).head? = some '.' ∧
        pointedLength whole (cs.take (n + 1)) = whole + (n + 1) := by
  unfold pointedLength at h
  split at h
  · next rest =>
    simp only at h
    split_ifs at h with hdigits
    · exact absurd rfl h
    · refine ⟨run Char.isDigit rest + exponent (rest.drop (run Char.isDigit rest)),
        ?_, rfl, ?_⟩
      · rw [pointedLength, if_neg hdigits]
        omega
      · have hrun : run Char.isDigit (rest.take
            (run Char.isDigit rest + exponent (rest.drop (run Char.isDigit rest))))
            = run Char.isDigit rest :=
          run_take_add fun c hc => isDigit_of_isDigitPart (head?_take_exponent _ c hc)
        rw [List.take_succ_cons, pointedLength, hrun, if_neg hdigits, take_add_run, exponent_take]
        omega
  · exact absurd rfl h

/-- A number with an exponent and no point is reached again by the text that it cuts off. -/
theorem poweredLength_take {cs : List Char} (h : poweredLength cs ≠ 0) :
    poweredLength (cs.take (poweredLength cs)) = poweredLength cs := by
  by_cases hdigits : run Char.isDigit cs = 0
  · simp [poweredLength, hdigits] at h
  · have hlength : ∀ {ds : List Char}, run Char.isDigit ds ≠ 0 → poweredLength ds =
        if run isDigitPart ds == 0 || exponent (ds.drop (run isDigitPart ds)) == 0 then 0
        else run isDigitPart ds + exponent (ds.drop (run isDigitPart ds)) := by
      intro ds hds
      simp [poweredLength, hds]
    rw [hlength hdigits] at h ⊢
    split_ifs at h ⊢ with hnone
    · exact absurd rfl h
    · have hfirst : run Char.isDigit (cs.take
          (run isDigitPart cs + exponent (cs.drop (run isDigitPart cs)))) ≠ 0 := by
        cases cs with
        | nil => exact hdigits
        | cons c cs =>
          obtain ⟨n, hn⟩ := Nat.exists_eq_succ_of_ne_zero h
          have hc : c.isDigit = true := by
            by_contra hc
            exact hdigits (by simp [run, hc])
          rw [hn, List.take_succ_cons]
          simp [run, hc]
      rw [hlength hfirst, run_take_add (head?_take_exponent _), take_add_run, exponent_take,
        if_neg hnone]

theorem decimalLength_take (cs : List Char) :
    decimalLength (cs.take (decimalLength cs)) = decimalLength cs := by
  have hle := decimalLength_le (cs.take (decimalLength cs))
  rw [List.length_take_of_le (decimalLength_le cs)] at hle
  refine Nat.le_antisymm hle ?_
  by_cases hzero : decimalLength cs = 0
  · rw [hzero]
    exact Nat.zero_le _
  · rw [decimalLength_eq (cs.take _)]
    rcases Nat.le_total (poweredLength cs)
      (pointedLength (run Char.isDigit cs) (cs.drop (run Char.isDigit cs))) with hle | hle
    · have hmax := (decimalLength_eq cs).trans (Nat.max_eq_left hle)
      obtain ⟨n, hn, hhead, htake⟩ := pointedLength_take (hmax ▸ hzero)
      have hrun :
          run Char.isDigit (cs.take (run Char.isDigit cs + (n + 1))) = run Char.isDigit cs :=
        run_take_add fun c hc => by
          obtain rfl : '.' = c := Option.some.inj (hhead.symm.trans hc)
          rfl
      rw [hmax, hn, hrun, take_add_run, htake]
      exact Nat.le_max_left _ _
    · have hmax := (decimalLength_eq cs).trans (Nat.max_eq_right hle)
      rw [hmax, poweredLength_take (hmax ▸ hzero)]
      exact Nat.le_max_right _ _

/-- The longest number at the front of a text, without its sign. -/
def unsigned? (body : List Char) : Option (LexemeKind × Nat) :=
  if integerLength body == 0 && decimalLength body == 0 then none
  else if integerLength body < decimalLength body then some (.decimal, decimalLength body)
  else some (.integer, integerLength body)

theorem number?_minus (cs : List Char) : number? '-' cs = unsigned? cs := by
  simp only [number?, unsigned?, beq_self_eq_true, if_true, List.drop_one, List.tail_cons,
    Nat.add_sub_cancel_left]

theorem number?_of_ne {c : Char} (hc : c ≠ '-') (cs : List Char) :
    number? c cs = (unsigned? (c :: cs)).map fun found => (found.1, found.2 - 1) := by
  simp only [number?, unsigned?, beq_iff_eq, hc, if_false, List.drop_zero, Nat.zero_add]
  split_ifs <;> rfl

theorem unsigned?_spec {body : List Char} {kind : LexemeKind} {n : Nat}
    (hn : unsigned? body = some (kind, n)) :
    0 < n ∧ n ≤ body.length ∧
      ∀ rest, Apart rest → unsigned? (body.take n ++ rest) = some (kind, n) := by
  have hinteger := integerLength_le body
  have hdecimal := decimalLength_le body
  rw [unsigned?] at hn
  split_ifs at hn with hnone hless
  · cases hn
    refine ⟨by omega, hdecimal, fun rest h => ?_⟩
    have hmono :=
      integerLength_mono (body.take (decimalLength body)) (body.drop (decimalLength body))
    rw [List.take_append_drop] at hmono
    rw [unsigned?, integerLength_append h, decimalLength_append h, decimalLength_take,
      if_neg (by simp; omega), if_pos (by omega)]
  · cases hn
    simp only [Bool.and_eq_true, beq_iff_eq] at hnone
    refine ⟨by omega, hinteger, fun rest h => ?_⟩
    have hle := decimalLength_le (body.take (integerLength body))
    rw [List.length_take_of_le hinteger] at hle
    rw [unsigned?, integerLength_append h, decimalLength_append h, integerLength_take,
      if_neg (by simp; omega), if_neg (by omega)]

/-- **A number is read again** in front of a text that stands apart. -/
theorem number?_spec {c : Char} {cs : List Char} {kind : LexemeKind} {n : Nat}
    (hn : number? c cs = some (kind, n)) :
    n ≤ cs.length ∧ ∀ rest, Apart rest →
      number? c (cs.take n ++ rest) = some (kind, n) := by
  by_cases hc : c = '-'
  · subst hc
    rw [number?_minus] at hn
    obtain ⟨-, hle, hagain⟩ := unsigned?_spec hn
    exact ⟨hle, fun rest h => by rw [number?_minus, hagain rest h]⟩
  · rw [number?_of_ne hc, Option.map_eq_some_iff] at hn
    obtain ⟨⟨kind, length⟩, hlength, hn⟩ := hn
    cases hn
    obtain ⟨hpos, hle, hagain⟩ := unsigned?_spec hlength
    obtain ⟨n, rfl⟩ := Nat.exists_eq_succ_of_ne_zero (Nat.ne_of_gt hpos)
    rw [List.length_cons] at hle
    refine ⟨by simpa using hle, fun rest h => ?_⟩
    have := hagain rest h
    rw [List.take_succ_cons, List.cons_append] at this
    rw [number?_of_ne hc, Nat.succ_sub_one, this]
    rfl

/-! ### Quoted texts -/

/-- A quoted text that is closed does not depend on what follows. -/
theorem quotedTail_append {quote : Char} {seen n : Nat} {ds : List Char}
    (h : quotedTail quote seen ds = (n, true)) (rest : List Char) :
    quotedTail quote seen (ds ++ rest) = (n, true) := by
  induction seen, ds using quotedTail.induct quote with
  | case1 seen => simp [quotedTail] at h
  | case2 seen ds => simpa [quotedTail.eq_def] using h
  | case3 seen hne => simp [quotedTail, hne] at h
  | case4 seen ds hne => simp [quotedTail, hne] at h
  | case5 seen d ds hd hne ih =>
    simp only [quotedTail, hne, hd, if_false, if_true] at h
    simpa [quotedTail, hne, hd] using ih h
  | case6 seen d ds hd hne ih =>
    rw [quotedTail.eq_def] at h ⊢
    simp only [hd, hne, if_false, List.cons_append] at h ⊢
    exact ih h

/-- A quoted text that is closed is read again from the text that it covers. -/
theorem quotedTail_take {quote : Char} {seen n : Nat} {cs : List Char}
    (h : quotedTail quote seen cs = (n, true)) :
    ∃ m, n = seen + m ∧ m ≤ cs.length ∧ quotedTail quote seen (cs.take m) = (n, true) := by
  induction seen, cs using quotedTail.induct quote with
  | case1 seen => simp [quotedTail] at h
  | case2 seen ds =>
    have hn : seen + 1 = n := by simpa [quotedTail.eq_def] using h
    exact ⟨1, hn.symm, by simp, by simp [quotedTail, hn]⟩
  | case3 seen hne => simp [quotedTail, hne] at h
  | case4 seen ds hne => simp [quotedTail, hne] at h
  | case5 seen d ds hd hne ih =>
    simp only [quotedTail, hne, hd, if_false, if_true] at h
    obtain ⟨m, hm, hle, htake⟩ := ih h
    refine ⟨m + 2, by omega, by simpa using hle, ?_⟩
    simpa [quotedTail, hne, hd] using htake
  | case6 seen d ds hd hne ih =>
    rw [quotedTail.eq_def] at h
    simp only [hd, hne, if_false] at h
    obtain ⟨m, hm, hle, htake⟩ := ih h
    refine ⟨m + 1, by omega, by simpa using hle, ?_⟩
    rw [List.take_succ_cons, quotedTail.eq_def]
    simpa only [hd, hne, if_false] using htake

end PhpHandbook.DocBlock
