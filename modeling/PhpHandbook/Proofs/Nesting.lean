import PhpHandbook.Declaration.Cursor

/-!
# Balanced brackets

Tokens are balanced when counting their brackets never goes below zero and ends there.  Passing over
a block means finding the first closing brace behind balanced tokens, so a block is known by the
place where it stops: no other block stops there, neither around it nor within it.

## Main definitions

* `countBrackets`, `Balanced`: counting brackets, and tokens in which every bracket has its partner.
* `HasBlock`: some block among the items stops at an offset.
* `HasAssigned`: some name among the items stops there, and is assigned to.
* `Ahead`: one of both.

## Main statements

* `skipToClose_of_count`, `exists_of_skipToClose_eq_ok`: what passing over the rest of a block
  finds.
* `not_hasBlock_of_balanced`: no block within a block stops where it does.
-/

namespace PhpHandbook.Declaration

open Source (Span TokenKind)

/-! ### Counting -/

/-- Counts brackets from `n` open ones on; `none` when more are closed than were open. -/
def countBrackets (opens closes : TokenKind → Bool) : Nat → List TokenKind → Option Nat
  | n, [] => some n
  | n, k :: ks =>
    if opens k then countBrackets opens closes (n + 1) ks
    else if closes k then
      match n with
      | 0 => none
      | n + 1 => countBrackets opens closes n ks
    else countBrackets opens closes n ks

/-- **Every bracket has its partner.** -/
def Balanced (opens closes : TokenKind → Bool) (kinds : List TokenKind) : Prop :=
  countBrackets opens closes 0 kinds = some 0

instance (opens closes : TokenKind → Bool) (kinds : List TokenKind) :
    Decidable (Balanced opens closes kinds) :=
  inferInstanceAs (Decidable (_ = _))

section Counting

variable {opens closes : TokenKind → Bool} {k : TokenKind} {ks : List TokenKind}

theorem countBrackets_of_open (n : Nat) (h : opens k) :
    countBrackets opens closes n (k :: ks) = countBrackets opens closes (n + 1) ks := by
  rw [countBrackets.eq_def]
  exact if_pos h

theorem countBrackets_zero_of_close (hopen : ¬opens k) (h : closes k) :
    countBrackets opens closes 0 (k :: ks) = none := by
  rw [countBrackets.eq_def]
  exact (if_neg hopen).trans (if_pos h)

theorem countBrackets_succ_of_close (n : Nat) (hopen : ¬opens k) (h : closes k) :
    countBrackets opens closes (n + 1) (k :: ks) = countBrackets opens closes n ks := by
  rw [countBrackets.eq_def]
  exact (if_neg hopen).trans (if_pos h)

theorem countBrackets_of_other (n : Nat) (hopen : ¬opens k) (hclose : ¬closes k) :
    countBrackets opens closes n (k :: ks) = countBrackets opens closes n ks := by
  rw [countBrackets.eq_def]
  exact (if_neg hopen).trans (if_neg hclose)

theorem countBrackets_append (n : Nat) (ks ls : List TokenKind) :
    countBrackets opens closes n (ks ++ ls)
      = (countBrackets opens closes n ks).bind (countBrackets opens closes · ls) := by
  induction ks generalizing n with
  | nil => rfl
  | cons k ks ih =>
    rw [List.cons_append]
    by_cases hopen : opens k = true
    · rw [countBrackets_of_open n hopen, countBrackets_of_open n hopen, ih]
    · by_cases hclose : closes k = true
      · cases n with
        | zero =>
          rw [countBrackets_zero_of_close hopen hclose, countBrackets_zero_of_close hopen hclose]
          rfl
        | succ n =>
          rw [countBrackets_succ_of_close n hopen hclose,
            countBrackets_succ_of_close n hopen hclose, ih]
      · rw [countBrackets_of_other n hopen hclose, countBrackets_of_other n hopen hclose, ih]

/-- Brackets that are open before stay open. -/
theorem countBrackets_add {n m : Nat} (more : Nat) (h : countBrackets opens closes n ks = some m) :
    countBrackets opens closes (n + more) ks = some (m + more) := by
  induction ks generalizing n with
  | nil =>
    cases h
    rfl
  | cons k ks ih =>
    by_cases hopen : opens k = true
    · rw [countBrackets_of_open n hopen] at h
      rw [countBrackets_of_open _ hopen, Nat.add_right_comm]
      exact ih h
    · by_cases hclose : closes k = true
      · cases n with
        | zero =>
          rw [countBrackets_zero_of_close hopen hclose] at h
          cases h
        | succ n =>
          rw [countBrackets_succ_of_close n hopen hclose] at h
          rw [Nat.add_right_comm, countBrackets_succ_of_close _ hopen hclose]
          exact ih h
      · rw [countBrackets_of_other n hopen hclose] at h
        rw [countBrackets_of_other _ hopen hclose]
        exact ih h

theorem Balanced.count (h : Balanced opens closes ks) (n : Nat) :
    countBrackets opens closes n ks = some n := by
  have hadd := countBrackets_add n h
  rwa [Nat.zero_add] at hadd

/-- Behind a bracket that is opened, balanced tokens are followed by the bracket that closes it. -/
theorem Balanced.not_balanced_of_open {ls : List TokenKind} (hk : opens k)
    (h : Balanced opens closes (ks ++ k :: ls)) : ¬Balanced opens closes ls := by
  intro hls
  rw [Balanced, countBrackets_append] at h
  obtain ⟨n, -, hn⟩ := Option.bind_eq_some_iff.1 h
  rw [countBrackets_of_open n hk, hls.count] at hn
  exact absurd (Option.some.inj hn) (Nat.succ_ne_zero n)

end Counting

/-! ### Braces -/

/-- Whether a token opens a block. -/
def opensBlock (k : TokenKind) : Bool :=
  k == .mark .braceOpen

/-- Whether a token closes a block. -/
def closesBlock (k : TokenKind) : Bool :=
  k == .mark .braceClose

/-- The kinds of the tokens of some items. -/
def kinds (ts : List Item) : List TokenKind :=
  ts.map (·.kind)

/-- **Passing over the rest of a block** finds the first closing brace behind which no block that
was open before stays open. -/
theorem skipToClose_of_count (opening : Span) {n : Nat} {body us : List Item} {c : Item}
    (hbody : countBrackets opensBlock closesBlock n (kinds body) = some 0)
    (hc : isMark .braceClose c) :
    (skipToClose opening n (body ++ c :: us)).outcome = .ok (opening.merge c.token.span) ∧
      (skipToClose opening n (body ++ c :: us)).rest = us := by
  have hnotOpen (i : Item) (h : isMark .braceClose i) : ¬isMark .braceOpen i := by
    simp only [isMark, beq_iff_eq] at h ⊢
    rw [h]
    exact nofun
  induction body generalizing n with
  | nil =>
    cases hbody
    rw [List.nil_append, skipToClose_zero_of_close opening (hnotOpen c hc) hc]
    exact ⟨rfl, rfl⟩
  | cons t body ih =>
    rw [kinds, List.map_cons] at hbody
    rw [List.cons_append]
    by_cases hopen : opensBlock t.kind = true
    · rw [countBrackets_of_open n hopen] at hbody
      rw [skipToClose_of_open opening n hopen]
      exact ih hbody
    · by_cases hclose : closesBlock t.kind = true
      · cases n with
        | zero =>
          rw [countBrackets_zero_of_close hopen hclose] at hbody
          cases hbody
        | succ n =>
          rw [countBrackets_succ_of_close n hopen hclose] at hbody
          rw [skipToClose_succ_of_close opening n hopen hclose]
          exact ih hbody
      · rw [countBrackets_of_other n hopen hclose] at hbody
        rw [skipToClose_of_other opening n hopen hclose]
        exact ih hbody

theorem exists_of_skipToClose_eq_ok {opening span : Span} {n : Nat} {ts : List Item}
    (h : (skipToClose opening n ts).outcome = .ok span) :
    ∃ body c us, ts = body ++ c :: us ∧
      countBrackets opensBlock closesBlock n (kinds body) = some 0 ∧ isMark .braceClose c ∧
      span = opening.merge c.token.span ∧ (skipToClose opening n ts).rest = us := by
  induction ts generalizing n with
  | nil => cases h
  | cons t ts ih =>
    by_cases hopen : opensBlock t.kind = true
    · rw [skipToClose_of_open opening n hopen] at h ⊢
      obtain ⟨body, c, us, rfl, hbody, hc, hspan, hrest⟩ := ih h
      refine ⟨t :: body, c, us, rfl, ?_, hc, hspan, hrest⟩
      exact (countBrackets_of_open n hopen).trans hbody
    · by_cases hclose : closesBlock t.kind = true
      · cases n with
        | zero =>
          rw [skipToClose_zero_of_close opening hopen hclose] at h ⊢
          cases h
          exact ⟨[], t, ts, rfl, rfl, hclose, rfl, rfl⟩
        | succ n =>
          rw [skipToClose_succ_of_close opening n hopen hclose] at h ⊢
          obtain ⟨body, c, us, rfl, hbody, hc, hspan, hrest⟩ := ih h
          refine ⟨t :: body, c, us, rfl, ?_, hc, hspan, hrest⟩
          exact (countBrackets_succ_of_close n hopen hclose).trans hbody
      · rw [skipToClose_of_other opening n hopen hclose] at h ⊢
        obtain ⟨body, c, us, rfl, hbody, hc, hspan, hrest⟩ := ih h
        refine ⟨t :: body, c, us, rfl, ?_, hc, hspan, hrest⟩
        exact (countBrackets_of_other n hopen hclose).trans hbody

/-! ### Blocks and where they stop -/

/-- Items one behind the other: each stops further on. -/
def Ordered (ts : List Item) : Prop :=
  ts.Pairwise fun i j => i.token.span.stop < j.token.span.stop

theorem Ordered.suffix {ts us : List Item} (h : Ordered ts) (hus : us <:+ ts) : Ordered us :=
  List.Pairwise.sublist hus.sublist h

/-- Items that stop at one place are one item. -/
theorem Ordered.eq_of_stop {ts us vs : List Item} {c d : Item} (h : Ordered ts)
    (hc : c :: us <:+ ts) (hd : d :: vs <:+ ts) (hstop : c.token.span.stop = d.token.span.stop) :
    c :: us = d :: vs := by
  have hlt {c d : Item} {us vs : List Item} (hc : c :: us <:+ ts) (hd : d :: vs <:+ c :: us)
      (hne : d :: vs ≠ c :: us) : c.token.span.stop < d.token.span.stop := by
    rcases List.suffix_cons_iff.1 hd with heq | hd
    · exact absurd heq hne
    · exact List.rel_of_pairwise_cons (h.suffix hc) (hd.subset List.mem_cons_self)
  rcases List.suffix_or_suffix_of_suffix hc hd with hsuffix | hsuffix
  · by_cases heq : c :: us = d :: vs
    · exact heq
    · have := hlt hd hsuffix heq
      omega
  · by_cases heq : d :: vs = c :: us
    · exact heq.symm
    · have := hlt hc hsuffix heq
      omega

/-- **Some block among the items stops at `e`.** -/
def HasBlock (ts : List Item) (e : Nat) : Prop :=
  ∃ t body c us, t :: (body ++ c :: us) <:+ ts ∧ isMark .braceOpen t ∧
    Balanced opensBlock closesBlock (kinds body) ∧ isMark .braceClose c ∧ c.token.span.stop = e

theorem HasBlock.mono {ts us : List Item} {e : Nat} (h : HasBlock us e) (hus : us <:+ ts) :
    HasBlock ts e := by
  obtain ⟨t, body, c, vs, hvs, hblock⟩ := h
  exact ⟨t, body, c, vs, hvs.trans hus, hblock⟩

/-- Whether an item may be the name of a member or of a variable. -/
def isNaming (i : Item) : Bool :=
  i.kind == .name || i.kind.isKeyword || i.kind == .variableName

theorem not_isNaming_of_mark {mark : Source.Mark} {i : Item} (h : isMark mark i) :
    ¬isNaming i = true := by
  simp only [isMark, beq_iff_eq] at h
  rw [isNaming, h]
  exact nofun

/-- **Some name among the items stops at `e`**, and an equals sign stands behind it. -/
def HasAssigned (ts : List Item) (e : Nat) : Prop :=
  ∃ n c us, n :: c :: us <:+ ts ∧ isNaming n ∧ isMark .equals c ∧ n.token.span.stop = e

/-- **What `e` marks is still ahead**: a block that stops there, or a name that stops there and is
assigned to. -/
def Ahead (ts : List Item) (e : Nat) : Prop :=
  HasBlock ts e ∨ HasAssigned ts e

theorem Ahead.mono {ts us : List Item} {e : Nat} (h : Ahead us e) (hus : us <:+ ts) :
    Ahead ts e := by
  rcases h with hblock | ⟨n, c, vs, hvs, hname⟩
  · exact .inl (hblock.mono hus)
  · exact .inr ⟨n, c, vs, hvs.trans hus, hname⟩

/-- What is ahead stops where some item does. -/
theorem Ahead.exists_mem {ts : List Item} {e : Nat} (h : Ahead ts e) :
    ∃ i ∈ ts, i.token.span.stop = e := by
  rcases h with ⟨t, body, c, us, hsuffix, -, -, -, hstop⟩ | ⟨n, c, us, hsuffix, -, -, hstop⟩
  · exact ⟨c, hsuffix.subset (by simp), hstop⟩
  · exact ⟨n, hsuffix.subset List.mem_cons_self, hstop⟩

/-- **No block within balanced tokens stops at the bracket behind them.** -/
theorem not_hasBlock_of_balanced {body us vs : List Item} {c : Item} (h : Ordered (body ++ c :: us))
    (hbody : Balanced opensBlock closesBlock (kinds body)) (hvs : vs <:+ body ++ c :: us) :
    ¬HasBlock vs c.token.span.stop := by
  rintro ⟨t, inner, d, ws, hinner, ht, hbalanced, -, hstop⟩
  have hsuffix : t :: (inner ++ d :: ws) <:+ body ++ c :: us := hinner.trans hvs
  have hd : d :: ws <:+ body ++ c :: us :=
    ((List.suffix_append inner _).trans (List.suffix_cons t _)).trans hsuffix
  have hsame := h.eq_of_stop hd (List.suffix_append body (c :: us)) hstop
  rw [hsame] at hsuffix
  -- so the block starts within the balanced tokens, and they close it twice
  obtain ⟨front, hfront⟩ := hsuffix
  rw [← List.cons_append, ← List.append_assoc] at hfront
  have hsplit := List.append_cancel_right hfront
  rw [← hsplit, kinds, List.map_append, List.map_cons] at hbody
  have hopen : opensBlock t.kind = true := ht
  exact hbody.not_balanced_of_open hopen hbalanced

/-- Nothing within a block is marked by where it stops. -/
theorem not_ahead_of_balanced {body us vs : List Item} {c : Item} (h : Ordered (body ++ c :: us))
    (hbody : Balanced opensBlock closesBlock (kinds body)) (hc : isMark .braceClose c)
    (hvs : vs <:+ body ++ c :: us) : ¬Ahead vs c.token.span.stop := by
  rintro (hblock | ⟨n, d, ws, hsuffix, hn, -, hstop⟩)
  · exact not_hasBlock_of_balanced h hbody hvs hblock
  · have hsame := h.eq_of_stop (hsuffix.trans hvs) (List.suffix_append body (c :: us)) hstop
    obtain rfl : n = c := (List.cons.inj hsame).1
    exact not_isNaming_of_mark hc hn

end PhpHandbook.Declaration
