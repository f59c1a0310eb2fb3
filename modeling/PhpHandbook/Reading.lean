/-!
# Reading a list of tokens

A reader looks at the front of a list of tokens and leaves a suffix of it.  `Reading` is the
outcome of one reader at one list: what was read or why not, and what is left.  That the rest is
a suffix is part of the type, so a cursor built from readings only moves forward, and a loop of
readers ends because each round leaves a shorter list.  A failure also leaves a rest: the place
where reading stopped.

## Main definitions

* `Reading`: an outcome and a rest that is a suffix of the tokens read from.
* `Reading.andThen`: go on from the rest of a success.
* `Reading.onNext`: branch on the next token; the branch that takes it sees a shorter list.
-/

namespace PhpHandbook

/-- The outcome of reading from the front of `ts`. -/
structure Reading (τ ε α : Type) (ts : List τ) where
  /-- What was read, or why nothing was. -/
  outcome : Except ε α
  /-- What is left. -/
  rest : List τ
  /-- Nothing is put back in front. -/
  suffix : rest <:+ ts

namespace Reading

variable {τ ε α β : Type} {ts : List τ}

/-- Reads nothing and succeeds. -/
def done (a : α) : Reading τ ε α ts :=
  ⟨.ok a, ts, List.suffix_refl ts⟩

/-- Reads nothing and fails. -/
def fail (e : ε) : Reading τ ε α ts :=
  ⟨.error e, ts, List.suffix_refl ts⟩

/-- Takes the first `n` tokens, which stand for `a`. -/
def past (n : Nat) (a : α) : Reading τ ε α ts :=
  ⟨.ok a, ts.drop n, List.drop_suffix n ts⟩

/-- The same outcome seen from a longer list. -/
def widen {us : List τ} (s : Reading τ ε α us) (h : us <:+ ts) : Reading τ ε α ts :=
  ⟨s.outcome, s.rest, s.suffix.trans h⟩

/-- The same outcome seen from one token earlier. -/
def behind {us : List τ} (t : τ) (s : Reading τ ε α us) : Reading τ ε α (t :: us) :=
  s.widen (List.suffix_cons t us)

/-- **Sequencing**: goes on from the rest of a success, and stops at a failure. -/
def andThen (s : Reading τ ε α ts)
    (next : α → (us : List τ) → us.length ≤ ts.length → Reading τ ε β us) :
    Reading τ ε β ts :=
  match s.outcome with
  | .ok a => (next a s.rest s.suffix.length_le).widen s.suffix
  | .error e => ⟨.error e, s.rest, s.suffix⟩

/-- Changes what was read. -/
def map (f : α → β) (s : Reading τ ε α ts) : Reading τ ε β ts :=
  match s.outcome with
  | .ok a => ⟨.ok (f a), s.rest, s.suffix⟩
  | .error e => ⟨.error e, s.rest, s.suffix⟩

/-- Changes the reason of a failure. -/
def mapError {ε' : Type} (f : ε → ε') (s : Reading τ ε α ts) : Reading τ ε' α ts :=
  match s.outcome with
  | .ok a => ⟨.ok a, s.rest, s.suffix⟩
  | .error e => ⟨.error (f e), s.rest, s.suffix⟩

/-- **Branching** on the next token: `yes` goes on behind a token that satisfies `p`, `no` stays
in front of any other token and of the end. -/
def onNext (p : τ → Bool) (ts : List τ)
    (yes : τ → (us : List τ) → us.length < ts.length → Reading τ ε α us)
    (no : Reading τ ε α ts) : Reading τ ε α ts :=
  match ts with
  | [] => no
  | t :: us => if p t then .behind t (yes t us (Nat.lt_succ_self _)) else no

/-- Takes the next token if it satisfies `p`. -/
def take? (p : τ → Bool) (ts : List τ) : Reading τ ε (Option τ) ts :=
  onNext p ts (fun t _ _ => done (some t)) (done none)

/-- Takes the next token if it satisfies `p`, and tells whether it did. -/
def skip (p : τ → Bool) (ts : List τ) : Reading τ ε Bool ts :=
  onNext p ts (fun _ _ _ => done true) (done false)

/-- Takes the next token, which has to satisfy `p`. -/
def expect (p : τ → Bool) (reason : List τ → ε) (ts : List τ) : Reading τ ε τ ts :=
  onNext p ts (fun t _ _ => done t) (fail (reason ts))

/-- Succeeds where a reader stopped, whatever came of it. -/
def ignore (s : Reading τ ε α ts) : Reading τ ε Unit ts :=
  ⟨.ok (), s.rest, s.suffix⟩

/-! ### Laws of sequencing -/

section Laws

variable {γ : Type}

@[simp]
theorem done_andThen (a : α)
    (next : α → (us : List τ) → us.length ≤ ts.length → Reading τ ε β us) :
    (done a : Reading τ ε α ts).andThen next = next a ts (Nat.le_refl _) :=
  rfl

@[simp]
theorem fail_andThen (e : ε)
    (next : α → (us : List τ) → us.length ≤ ts.length → Reading τ ε β us) :
    (fail e : Reading τ ε α ts).andThen next = fail e :=
  rfl

@[simp]
theorem map_andThen (f : α → β) (s : Reading τ ε α ts)
    (next : β → (us : List τ) → us.length ≤ ts.length → Reading τ ε γ us) :
    (s.map f).andThen next = s.andThen fun a us le => next (f a) us le := by
  obtain ⟨outcome, rest, suffix⟩ := s
  cases outcome with
  | ok a => rfl
  | error e => rfl

theorem widen_andThen {us : List τ} (s : Reading τ ε α us) (h : us <:+ ts)
    (next : α → (us : List τ) → us.length ≤ ts.length → Reading τ ε β us) :
    (s.widen h).andThen next
      = (s.andThen fun a vs le => next a vs (Nat.le_trans le h.length_le)).widen h := by
  obtain ⟨outcome, rest, suffix⟩ := s
  cases outcome with
  | ok a => rfl
  | error e => rfl

@[simp]
theorem behind_andThen {us : List τ} (t : τ) (s : Reading τ ε α us)
    (next : α → (vs : List τ) → vs.length ≤ (t :: us).length → Reading τ ε β vs) :
    (s.behind t).andThen next
      = (s.andThen fun a vs le => next a vs (Nat.le_trans le (Nat.le_succ _))).behind t :=
  widen_andThen s (List.suffix_cons t us) next

@[simp]
theorem andThen_andThen (s : Reading τ ε α ts)
    (next : α → (us : List τ) → us.length ≤ ts.length → Reading τ ε β us)
    (last : β → (us : List τ) → us.length ≤ ts.length → Reading τ ε γ us) :
    (s.andThen next).andThen last
      = s.andThen fun a us le => (next a us le).andThen fun b vs le' =>
        last b vs (Nat.le_trans le' le) := by
  obtain ⟨outcome, rest, suffix⟩ := s
  cases outcome with
  | error e => rfl
  | ok a => exact widen_andThen (next a rest suffix.length_le) suffix last

@[simp]
theorem onNext_andThen (p : τ → Bool)
    (yes : τ → (us : List τ) → us.length < ts.length → Reading τ ε α us)
    (no : Reading τ ε α ts)
    (next : α → (us : List τ) → us.length ≤ ts.length → Reading τ ε β us) :
    (onNext p ts yes no).andThen next
      = onNext p ts (fun t us lt => (yes t us lt).andThen fun a vs le =>
        next a vs (Nat.le_trans le (Nat.le_of_lt lt)))
        (no.andThen next) := by
  cases ts with
  | nil => rfl
  | cons t us =>
    simp only [onNext]
    split
    · exact widen_andThen (yes t us _) (List.suffix_cons t us) next
    · rfl

@[simp]
theorem andThen_done (f : α → β) (s : Reading τ ε α ts) :
    (s.andThen fun a _ _ => done (f a)) = s.map f := by
  obtain ⟨outcome, rest, suffix⟩ := s
  cases outcome <;> rfl

@[simp]
theorem map_id (s : Reading τ ε α ts) : s.map id = s := by
  obtain ⟨outcome, rest, suffix⟩ := s
  cases outcome <;> rfl

end Laws

/-! ### Outcomes -/

section Outcomes

@[simp]
theorem outcome_widen {us : List τ} (s : Reading τ ε α us) (h : us <:+ ts) :
    (s.widen h).outcome = s.outcome :=
  rfl

@[simp]
theorem rest_widen {us : List τ} (s : Reading τ ε α us) (h : us <:+ ts) :
    (s.widen h).rest = s.rest :=
  rfl

@[simp]
theorem rest_map (f : α → β) (s : Reading τ ε α ts) : (s.map f).rest = s.rest := by
  obtain ⟨outcome, rest, suffix⟩ := s
  cases outcome <;> rfl

@[simp]
theorem rest_mapError {ε' : Type} (f : ε → ε') (s : Reading τ ε α ts) :
    (s.mapError f).rest = s.rest := by
  obtain ⟨outcome, rest, suffix⟩ := s
  cases outcome <;> rfl

theorem outcome_map_eq_ok_iff {f : α → β} {s : Reading τ ε α ts} {b : β} :
    (s.map f).outcome = .ok b ↔ ∃ a, s.outcome = .ok a ∧ f a = b := by
  obtain ⟨outcome, rest, suffix⟩ := s
  cases outcome with
  | ok a => simp [map]
  | error e => simp [map]

@[simp]
theorem outcome_mapError_eq_ok_iff {ε' : Type} {f : ε → ε'}
    {s : Reading τ ε α ts} {a : α} :
    (s.mapError f).outcome = .ok a ↔ s.outcome = .ok a := by
  obtain ⟨outcome, rest, suffix⟩ := s
  cases outcome with
  | ok a => simp [mapError]
  | error e => simp [mapError]

/-- A reading of which the outcome is known. -/
theorem eq_of_outcome {s : Reading τ ε α ts} {o : Except ε α} (h : s.outcome = o) :
    s = ⟨o, s.rest, s.suffix⟩ := by
  subst h
  rfl

theorem andThen_of_ok {s : Reading τ ε α ts} {a : α} (h : s.outcome = .ok a)
    (next : α → (us : List τ) → us.length ≤ ts.length → Reading τ ε β us) :
    s.andThen next = (next a s.rest s.suffix.length_le).widen s.suffix := by
  obtain ⟨outcome, rest, suffix⟩ := s
  obtain rfl : outcome = .ok a := h
  rfl

/-- A sequence that succeeds has succeeded at each step. -/
theorem outcome_andThen_eq_ok {s : Reading τ ε α ts} {b : β}
    {next : α → (us : List τ) → us.length ≤ ts.length → Reading τ ε β us}
    (h : (s.andThen next).outcome = .ok b) :
    ∃ a, s.outcome = .ok a ∧ (next a s.rest s.suffix.length_le).outcome = .ok b := by
  obtain ⟨outcome, rest, suffix⟩ := s
  cases outcome with
  | ok a => exact ⟨a, rfl, h⟩
  | error e => cases h

end Outcomes

/-! ### Progress -/

/-- A reading **advances** when a success leaves fewer tokens. -/
def Advances (s : Reading τ ε α ts) : Prop :=
  ∀ a, s.outcome = .ok a → s.rest.length < ts.length

theorem rest_length_le (s : Reading τ ε α ts) : s.rest.length ≤ ts.length :=
  s.suffix.length_le

theorem advances_fail (e : ε) : (fail e : Reading τ ε α ts).Advances := by
  intro a h
  simp [fail] at h

theorem advances_behind {us : List τ} (t : τ) (s : Reading τ ε α us) :
    (s.behind t).Advances := by
  intro _ _
  have := s.rest_length_le
  simp only [behind, widen, List.length_cons]
  omega

theorem Advances.onNext {p : τ → Bool}
    {yes : τ → (us : List τ) → us.length < ts.length → Reading τ ε α us}
    {no : Reading τ ε α ts} (h : no.Advances) : (onNext p ts yes no).Advances := by
  cases ts with
  | nil => exact h
  | cons t us =>
    simp only [Reading.onNext]
    split
    · exact advances_behind t _
    · exact h

theorem advances_expect (p : τ → Bool) (reason : List τ → ε) (ts : List τ) :
    (expect p reason ts).Advances :=
  Advances.onNext (advances_fail _)

theorem Advances.map {s : Reading τ ε α ts} (h : s.Advances) (f : α → β) :
    (s.map f).Advances := by
  intro b hb
  unfold Reading.map at hb ⊢
  split at hb
  · next a ha => exact h a ha
  · simp at hb

theorem Advances.mapError {ε' : Type} {s : Reading τ ε α ts} (h : s.Advances) (f : ε → ε') :
    (s.mapError f).Advances := by
  intro b hb
  unfold Reading.mapError at hb ⊢
  split at hb
  · next a ha => exact h a ha
  · simp at hb

/-- A sequence advances when its first step does. -/
theorem Advances.andThen {s : Reading τ ε α ts} (h : s.Advances)
    (next : α → (us : List τ) → us.length ≤ ts.length → Reading τ ε β us) :
    (s.andThen next).Advances := by
  intro b hb
  unfold Reading.andThen at hb ⊢
  split at hb
  · next a ha =>
    have := h a ha
    have := (next a s.rest s.suffix.length_le).rest_length_le
    simp only [widen]
    omega
  · simp at hb

/-- A sequence advances when every second step does. -/
theorem advances_andThen (s : Reading τ ε α ts)
    {next : α → (us : List τ) → us.length ≤ ts.length → Reading τ ε β us}
    (h : ∀ a us le, (next a us le).Advances) : (s.andThen next).Advances := by
  intro b hb
  unfold Reading.andThen at hb ⊢
  split at hb
  · next a ha =>
    have := s.rest_length_le
    have := h a s.rest s.suffix.length_le b hb
    simp only [widen]
    omega
  · simp at hb

/-! ### What is given -/

/-- What a reader gives, where it succeeds, has a property. -/
def Yields (s : Reading τ ε α ts) (P : α → Prop) : Prop :=
  ∀ a, s.outcome = .ok a → P a

theorem yields_true (s : Reading τ ε α ts) : s.Yields fun _ => True :=
  fun _ _ => trivial

theorem yields_done {P : α → Prop} {a : α} (h : P a) :
    (done a : Reading τ ε α ts).Yields P := by
  intro b hb
  obtain rfl : a = b := by simpa [done] using hb
  exact h

theorem yields_fail {P : α → Prop} (e : ε) : (fail e : Reading τ ε α ts).Yields P := by
  intro a h
  simp [fail] at h

theorem Yields.of_eq {s : Reading τ ε α ts} {P : α → Prop} (h : s.Yields P) {a : α}
    {rest : List τ} {suffix : rest <:+ ts} (hs : s = ⟨.ok a, rest, suffix⟩) : P a :=
  h a (by rw [hs])

theorem Yields.map {s : Reading τ ε α ts} {P : α → Prop} {Q : β → Prop} {f : α → β}
    (h : s.Yields P) (hf : ∀ a, P a → Q (f a)) : (s.map f).Yields Q := by
  intro b hb
  unfold Reading.map at hb
  split at hb
  · next a ha =>
    cases hb
    exact hf a (h a ha)
  · simp at hb

theorem Yields.mapError {ε' : Type} {s : Reading τ ε α ts} {P : α → Prop} (h : s.Yields P)
    (f : ε → ε') : (s.mapError f).Yields P := by
  intro b hb
  unfold Reading.mapError at hb
  split at hb
  · next a ha =>
    cases hb
    exact h _ ha
  · simp at hb

/-- A sequence yields what its second step yields behind what its first step gave. -/
theorem Yields.andThen {s : Reading τ ε α ts} {P : α → Prop} {Q : β → Prop}
    {next : α → (us : List τ) → us.length ≤ ts.length → Reading τ ε β us}
    (h : s.Yields P) (hnext : ∀ a us le, us <:+ ts → P a → (next a us le).Yields Q) :
    (s.andThen next).Yields Q := by
  intro b hb
  unfold Reading.andThen at hb
  split at hb
  · next a ha => exact hnext a _ _ s.suffix (h a ha) b hb
  · simp at hb

theorem Yields.behind {us : List τ} {s : Reading τ ε α us} {P : α → Prop}
    (h : s.Yields P) (t : τ) :
    (s.behind t).Yields P :=
  h

/-- Branching, with what each branch knows about the next token. -/
theorem yields_onNext_cases {p : τ → Bool} {P : α → Prop}
    {yes : τ → (us : List τ) → us.length < ts.length → Reading τ ε α us}
    {no : Reading τ ε α ts} (hyes : ∀ t us lt, ts = t :: us → p t → (yes t us lt).Yields P)
    (hno : ts.head?.any p = false → no.Yields P) : (onNext p ts yes no).Yields P := by
  cases ts with
  | nil => exact hno rfl
  | cons t us =>
    simp only [onNext]
    split
    · next ht => exact hyes t us _ rfl ht
    · next ht => exact hno (by simpa using ht)

theorem yields_onNext {p : τ → Bool} {P : α → Prop}
    {yes : τ → (us : List τ) → us.length < ts.length → Reading τ ε α us}
    {no : Reading τ ε α ts}
    (hyes : ∀ t us lt, t ∈ ts → us <:+ ts → p t → (yes t us lt).Yields P)
    (hno : no.Yields P) :
    (onNext p ts yes no).Yields P := by
  refine yields_onNext_cases (fun t us lt hts ht => ?_) fun _ => hno
  subst hts
  exact hyes t us lt List.mem_cons_self (List.suffix_cons t us) ht

theorem yields_expect (p : τ → Bool) (reason : List τ → ε) (ts : List τ) :
    (expect p reason ts).Yields fun t => t ∈ ts ∧ p t :=
  yields_onNext (fun _ _ _ ht _ hp => yields_done ⟨ht, hp⟩) (yields_fail _)

/-! ### What is read -/

/-- A reader **reads** a value and leaves the given rest. -/
def Reads (s : Reading τ ε α ts) (a : α) (rest : List τ) : Prop :=
  s.outcome = .ok a ∧ s.rest = rest

section Reads

variable {us rest : List τ} {a : α} {b : β}

theorem reads_done (a : α) : (done a : Reading τ ε α ts).Reads a ts :=
  ⟨rfl, rfl⟩

theorem Reads.behind {s : Reading τ ε α us} (h : s.Reads a rest) (t : τ) :
    (s.behind t).Reads a rest :=
  h

theorem Reads.map {s : Reading τ ε α ts} {f : α → β} (h : s.Reads a rest) (hf : f a = b) :
    (s.map f).Reads b rest := by
  refine ⟨outcome_map_eq_ok_iff.2 ⟨a, h.1, hf⟩, ?_⟩
  rw [rest_map, h.2]

/-- A sequence goes on from what is left. -/
theorem Reads.andThen {s : Reading τ ε α ts}
    {next : α → (us : List τ) → us.length ≤ ts.length → Reading τ ε β us}
    (h : s.Reads a us) (hnext : ∀ le, (next a us le).Reads b rest) :
    (s.andThen next).Reads b rest := by
  obtain ⟨houtcome, rfl⟩ := h
  rw [andThen_of_ok houtcome]
  exact hnext _

theorem reads_onNext {p : τ → Bool} {t : τ}
    {yes : τ → (vs : List τ) → vs.length < (t :: us).length → Reading τ ε α vs}
    {no : Reading τ ε α (t :: us)} (ht : p t = true)
    (h : (yes t us (Nat.lt_succ_self _)).Reads a rest) :
    (onNext p (t :: us) yes no).Reads a rest := by
  rw [onNext, if_pos ht]
  exact h.behind t

theorem reads_onNext_no {p : τ → Bool}
    {yes : τ → (vs : List τ) → vs.length < ts.length → Reading τ ε α vs}
    {no : Reading τ ε α ts} (hts : ts.head?.any p = false) (h : no.Reads a rest) :
    (onNext p ts yes no).Reads a rest := by
  cases ts with
  | nil => exact h
  | cons t us =>
    rw [onNext, if_neg (by simpa using hts)]
    exact h

theorem reads_skip {p : τ → Bool} {t : τ} (ht : p t = true) (us : List τ) :
    (skip p (t :: us) : Reading τ ε Bool (t :: us)).Reads true us :=
  reads_onNext ht (reads_done true)

theorem reads_skip_no {p : τ → Bool} (hts : ts.head?.any p = false) :
    (skip p ts : Reading τ ε Bool ts).Reads false ts :=
  reads_onNext_no hts (reads_done false)

theorem reads_take? {p : τ → Bool} {t : τ} (ht : p t = true) (us : List τ) :
    (take? p (t :: us) : Reading τ ε (Option τ) (t :: us)).Reads (some t) us :=
  reads_onNext ht (reads_done (some t))

theorem reads_take?_no {p : τ → Bool} (hts : ts.head?.any p = false) :
    (take? p ts : Reading τ ε (Option τ) ts).Reads none ts :=
  reads_onNext_no hts (reads_done none)

theorem reads_expect {p : τ → Bool} {t : τ} (ht : p t = true) (reason : List τ → ε)
    (us : List τ) :
    (expect p reason (t :: us)).Reads t us :=
  reads_onNext ht (reads_done t)

/-- A reading reads one value and leaves one rest. -/
theorem Reads.unique {s : Reading τ ε α ts} {a' : α} (h : s.Reads a us) (h' : s.Reads a' rest) :
    a = a' ∧ us = rest :=
  ⟨Except.ok.inj (h.1.symm.trans h'.1), h.2.symm.trans h'.2⟩

/-! What was read in a reading that is put together was read by its parts. -/

theorem not_reads_fail (e : ε) : ¬ (fail e : Reading τ ε α ts).Reads a rest := by
  rintro ⟨houtcome, -⟩
  simp [fail] at houtcome

theorem reads_done_iff {c : α} : (done c : Reading τ ε α ts).Reads a rest ↔
    c = a ∧ ts = rest := by
  simp [Reads, done]

theorem reads_map_iff {s : Reading τ ε α ts} {f : α → β} :
    (s.map f).Reads b rest ↔ ∃ a, s.Reads a rest ∧ f a = b := by
  rw [Reads, outcome_map_eq_ok_iff, rest_map]
  exact ⟨fun ⟨⟨a, ha, hf⟩, hrest⟩ => ⟨a, ⟨ha, hrest⟩, hf⟩,
    fun ⟨a, ⟨ha, hrest⟩, hf⟩ => ⟨⟨a, ha, hf⟩, hrest⟩⟩

/-- A sequence that reads has read at each step. -/
theorem Reads.steps {s : Reading τ ε α ts}
    {next : α → (us : List τ) → us.length ≤ ts.length → Reading τ ε β us}
    (h : (s.andThen next).Reads b rest) :
    ∃ a us, ∃ le : us.length ≤ ts.length, s.Reads a us ∧ (next a us le).Reads b rest := by
  obtain ⟨houtcome, hrest⟩ := h
  obtain ⟨a, ha, hnext⟩ := outcome_andThen_eq_ok houtcome
  rw [andThen_of_ok ha, rest_widen] at hrest
  exact ⟨a, s.rest, _, ⟨ha, rfl⟩, hnext, hrest⟩

/-- A branching that reads has read in one of its branches. -/
theorem Reads.branches {p : τ → Bool}
    {yes : τ → (us : List τ) → us.length < ts.length → Reading τ ε α us}
    {no : Reading τ ε α ts} (h : (onNext p ts yes no).Reads a rest) :
    (∃ t us, ∃ lt : us.length < ts.length, ts = t :: us ∧ p t = true ∧
      (yes t us lt).Reads a rest) ∨
      (ts.head?.any p = false ∧ no.Reads a rest) := by
  cases ts with
  | nil => exact .inr ⟨rfl, h⟩
  | cons t us =>
    rw [onNext] at h
    split at h
    · next ht => exact .inl ⟨t, us, Nat.lt_succ_self _, rfl, ht, h⟩
    · next ht => exact .inr ⟨by simpa using ht, h⟩

theorem Reads.suffix {s : Reading τ ε α ts} (h : s.Reads a rest) : rest <:+ ts :=
  h.2 ▸ s.suffix

/-- Nothing is left of nothing. -/
theorem Reads.eq_nil {s : Reading τ ε α ts} (h : s.Reads a rest) (hts : ts = []) : rest = [] :=
  List.suffix_nil.1 (hts ▸ h.suffix)

theorem Reads.of_behind {t : τ} {s : Reading τ ε α us} (h : (s.behind t).Reads a rest) :
    s.Reads a rest :=
  h

theorem Reads.skip_cases {found : Bool} (h : (skip p ts : Reading τ ε Bool ts).Reads found rest) :
    (∃ t, ts = t :: rest ∧ p t = true) ∨ ts = rest := by
  obtain ⟨t, us, -, rfl, ht, h⟩ | ⟨-, h⟩ := h.branches
  · obtain ⟨-, rfl⟩ := reads_done_iff.1 h
    exact .inl ⟨t, rfl, ht⟩
  · exact .inr (reads_done_iff.1 h).2

theorem Reads.take?_cases {found : Option τ}
    (h : (take? p ts : Reading τ ε (Option τ) ts).Reads found rest) :
    (∃ t, ts = t :: rest ∧ p t = true) ∨ ts = rest := by
  obtain ⟨t, us, -, rfl, ht, h⟩ | ⟨-, h⟩ := h.branches
  · obtain ⟨-, rfl⟩ := reads_done_iff.1 h
    exact .inl ⟨t, rfl, ht⟩
  · exact .inr (reads_done_iff.1 h).2

end Reads

/-! ### What is taken -/

/-- What a reader **takes** when it succeeds has a property. -/
def Takes (s : Reading τ ε α ts) (P : τ → Prop) : Prop :=
  ∀ a rest, s.Reads a rest → ∃ taken, ts = taken ++ rest ∧ ∀ t ∈ taken, P t

section Takes

variable {us : List τ} {P : τ → Prop}

theorem takes_done (a : α) : (done a : Reading τ ε α ts).Takes P := by
  intro b rest h
  obtain ⟨-, rfl⟩ := reads_done_iff.1 h
  exact ⟨[], rfl, List.forall_mem_nil _⟩

theorem takes_fail (e : ε) : (fail e : Reading τ ε α ts).Takes P :=
  fun _ _ h => absurd h (not_reads_fail e)

theorem Takes.map {s : Reading τ ε α ts} (h : s.Takes P) (f : α → β) :
    (s.map f).Takes P := by
  intro b rest hb
  obtain ⟨a, ha, -⟩ := reads_map_iff.1 hb
  exact h a rest ha

theorem Takes.andThen {s : Reading τ ε α ts}
    {next : α → (us : List τ) → us.length ≤ ts.length → Reading τ ε β us}
    (h : s.Takes P) (hnext : ∀ a us le, (next a us le).Takes P) : (s.andThen next).Takes P := by
  intro b rest hb
  obtain ⟨a, us, le, ha, hb⟩ := hb.steps
  obtain ⟨taken, rfl, htaken⟩ := h a us ha
  obtain ⟨more, rfl, hmore⟩ := hnext a us le b rest hb
  exact ⟨taken ++ more, (List.append_assoc _ _ _).symm,
    List.forall_mem_append.2 ⟨htaken, hmore⟩⟩

theorem Takes.behind {s : Reading τ ε α us} {t : τ} (h : s.Takes P) (ht : P t) :
    (s.behind t).Takes P := by
  intro a rest ha
  obtain ⟨taken, rfl, htaken⟩ := h a rest ha
  exact ⟨t :: taken, rfl, List.forall_mem_cons.2 ⟨ht, htaken⟩⟩

theorem takes_onNext {p : τ → Bool}
    {yes : τ → (us : List τ) → us.length < ts.length → Reading τ ε α us}
    {no : Reading τ ε α ts} (hp : ∀ t us, ts = t :: us → p t = true → P t)
    (hyes : ∀ t us lt, (yes t us lt).Takes P) (hno : no.Takes P) :
    (onNext p ts yes no).Takes P := by
  intro a rest h
  obtain ⟨t, us, lt, rfl, ht, h⟩ | ⟨-, h⟩ := h.branches
  · exact (hyes t us lt).behind (hp t us rfl ht) a rest h
  · exact hno a rest h

theorem takes_expect {p : τ → Bool} (hp : ∀ t, p t = true → P t) (reason : List τ → ε)
    (ts : List τ) :
    (expect p reason ts).Takes P :=
  takes_onNext (fun t _ _ => hp t) (fun t _ _ => takes_done t) (takes_fail _)

theorem takes_skip {p : τ → Bool} (hp : ∀ t, p t = true → P t) (ts : List τ) :
    (skip p ts : Reading τ ε Bool ts).Takes P :=
  takes_onNext (fun t _ _ => hp t) (fun _ _ _ => takes_done true) (takes_done false)

theorem takes_take? {p : τ → Bool} (hp : ∀ t, p t = true → P t) (ts : List τ) :
    (take? p ts : Reading τ ε (Option τ) ts).Takes P :=
  takes_onNext (fun t _ _ => hp t) (fun t _ _ => takes_done (some t)) (takes_done none)

end Takes

/-! ### Reading in front of more -/

section Append

variable {us vs ws r : List τ} {a : α} {b : β} {p : τ → Bool}

/-- A branching takes the same branch in front of more tokens, if those are not what it looks
for. -/
theorem Reads.onNext_append
    {yes : τ → (us : List τ) → us.length < ts.length → Reading τ ε α us}
    {no : Reading τ ε α ts}
    {yes' : τ → (us : List τ) → us.length < (ts ++ r).length → Reading τ ε β us}
    {no' : Reading τ ε β (ts ++ r)} (h : (onNext p ts yes no).Reads a vs)
    (hr : ts = [] → r.head?.any p = false)
    (hyes : ∀ t us lt lt', ts = t :: us → p t = true → (yes t us lt).Reads a vs →
      (yes' t (us ++ r) lt').Reads b ws)
    (hno : ts.head?.any p = false → no.Reads a vs → no'.Reads b ws) :
    (onNext p (ts ++ r) yes' no').Reads b ws := by
  obtain ⟨t, us, lt, rfl, ht, h⟩ | ⟨hts, h⟩ := h.branches
  · exact reads_onNext ht (hyes t us lt _ rfl ht h)
  · refine reads_onNext_no ?_ (hno hts h)
    cases ts with
    | nil => exact hr rfl
    | cons t us => exact hts

theorem Reads.expect_append {reason reason' : List τ → ε} {t : τ}
    (h : (expect p reason ts).Reads t vs) (r : List τ) :
    (expect p reason' (ts ++ r)).Reads t (vs ++ r) := by
  obtain ⟨t, us, -, rfl, ht, h⟩ | ⟨-, h⟩ := h.branches
  · obtain ⟨rfl, rfl⟩ := reads_done_iff.1 h
    exact reads_expect ht _ _
  · exact absurd h (not_reads_fail _)

theorem Reads.skip_append {found : Bool} (h : (skip p ts : Reading τ ε Bool ts).Reads found vs)
    (hr : r.head?.any p = false) :
    (skip p (ts ++ r) : Reading τ ε Bool (ts ++ r)).Reads found (vs ++ r) := by
  refine h.onNext_append (fun _ => hr) (fun t us _ _ _ _ h => ?_) fun _ h => ?_
  · obtain ⟨rfl, rfl⟩ := reads_done_iff.1 h
    exact reads_done true
  · obtain ⟨rfl, rfl⟩ := reads_done_iff.1 h
    exact reads_done false

theorem Reads.take?_append {found : Option τ}
    (h : (take? p ts : Reading τ ε (Option τ) ts).Reads found vs) (hr : r.head?.any p = false) :
    (take? p (ts ++ r) : Reading τ ε (Option τ) (ts ++ r)).Reads found (vs ++ r) := by
  refine h.onNext_append (fun _ => hr) (fun t us _ _ _ _ h => ?_) fun _ h => ?_
  · obtain ⟨rfl, rfl⟩ := reads_done_iff.1 h
    exact reads_done (some t)
  · obtain ⟨rfl, rfl⟩ := reads_done_iff.1 h
    exact reads_done none

end Append

end Reading

end PhpHandbook
