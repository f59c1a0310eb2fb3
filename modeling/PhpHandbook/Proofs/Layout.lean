import PhpHandbook.Proofs.Lossless
import PhpHandbook.Proofs.Positions
import PhpHandbook.Proofs.Words

/-!
# How items lie in the source

The items of a text lie one behind the other: the comments in front of a token, and the token, each
at a span that cuts out its text.  What is left to read lies behind what was read.  So a reading
goes from an offset where the rest of the text begins to another one further on, and what it gives
was found between the two.  A reading that fails reports a place that lies in the text as well.

This is said once for each way to put readings together, and once for each reader of single tokens.

## Main definitions

* `Span.Inside`, `Span.Marks`: a span within another, and a span that cuts out a text.
* `Laid`: items that lie one behind the other from an offset on.
* `Lays`: what a reading gives up to the offset where its rest begins, and what it reports.

## Main statements

* `laid_tokenize`: the items of a text lie in it from its start on.
* `Lays.andThen`, `lays_onNext`: readings one after the other, and readings that look ahead.
-/

namespace PhpHandbook

namespace Source

/-- A span within another one. -/
structure Span.Inside (s outer : Span) : Prop where
  start_le : outer.start ≤ s.start
  le : s.start ≤ s.stop
  stop_le : s.stop ≤ outer.stop

/-- **A span marks a text**: it lies in the source and cuts out the text. -/
structure Span.Marks (s : Span) (source : List Char) (text : String) : Prop where
  slice : s.slice source = text
  inside : s.Inside ⟨0, byteLength source⟩

theorem Span.Inside.trans {s t outer : Span} (h : s.Inside t) (ht : t.Inside outer) :
    s.Inside outer :=
  ⟨ht.start_le.trans h.start_le, h.le, h.stop_le.trans ht.stop_le⟩

theorem Span.Inside.widen {s : Span} {lo lo' hi hi' : Nat} (h : s.Inside ⟨lo, hi⟩)
    (hlo : lo' ≤ lo) (hhi : hi ≤ hi') : s.Inside ⟨lo', hi'⟩ :=
  ⟨hlo.trans h.start_le, h.le, h.stop_le.trans hhi⟩

/-- What covers a span and one that neither begins nor stops before it. -/
theorem Span.merge_eq {s t : Span} (hstart : s.start ≤ t.start) (hstop : s.stop ≤ t.stop) :
    s.merge t = ⟨s.start, t.stop⟩ := by
  rw [merge, Nat.min_eq_left hstart, Nat.max_eq_right hstop]

/-- What covers a span and one further on. -/
theorem Span.Inside.merge_eq {s t : Span} {lo mid hi : Nat} (hs : s.Inside ⟨lo, mid⟩)
    (ht : t.Inside ⟨mid, hi⟩) : s.merge t = ⟨s.start, t.stop⟩ :=
  Span.merge_eq (hs.le.trans (hs.stop_le.trans ht.start_le))
    (hs.stop_le.trans (ht.start_le.trans ht.le))

theorem Span.Inside.merge_start {s t : Span} {lo mid hi : Nat} (hs : s.Inside ⟨lo, mid⟩)
    (ht : t.Inside ⟨mid, hi⟩) : (s.merge t).start = s.start := by
  rw [hs.merge_eq ht]

theorem Span.Inside.merge {s t : Span} {lo mid hi : Nat} (hs : s.Inside ⟨lo, mid⟩)
    (ht : t.Inside ⟨mid, hi⟩) : (s.merge t).Inside ⟨lo, hi⟩ := by
  rw [hs.merge_eq ht]
  exact ⟨hs.start_le, hs.le.trans (hs.stop_le.trans (ht.start_le.trans ht.le)), ht.stop_le⟩

/-- What lies between two spans lies in what covers them. -/
theorem Span.Inside.between {x s t : Span} {lo mid hi hi' : Nat} (hx : x.Inside ⟨mid, hi⟩)
    (hs : s.Inside ⟨lo, mid⟩) (ht : t.Inside ⟨hi, hi'⟩) : x.Inside (s.merge t) := by
  have hle : mid ≤ hi := hx.start_le.trans (hx.le.trans hx.stop_le)
  rw [hs.merge_eq (ht.widen hle (Nat.le_refl _))]
  exact ⟨hs.le.trans (hs.stop_le.trans hx.start_le), hx.le,
    hx.stop_le.trans (ht.start_le.trans ht.le)⟩

/-- **A token stands in the text** at its span. -/
theorem Token.marks {text : List Char} {t : Token} (h : t ∈ (tokenize text).tokens) :
    t.span.Marks text t.lexeme := by
  obtain ⟨before, after, htext, hspan⟩ := tokens_covers h
  have hlength := congrArg byteLength htext
  rw [byteLength_append, byteLength_append] at hlength
  rw [hspan]
  refine ⟨?_, Nat.zero_le _, Nat.le_add_right _ _, ?_⟩
  · rw [htext, Span.slice, Span.chars_append, String.ofList_toList]
  · show byteLength before + byteLength t.lexeme.toList ≤ byteLength text
    omega

end Source

namespace Declaration

open Source (Span Token TokenKind Keyword Mark byteLength tokenize)

/-! ### Items one behind the other -/

/-- **A token behind `lo`**, with its text at its span. -/
structure TokenStands (source : List Char) (lo : Nat) (t : Token) : Prop where
  le : lo ≤ t.span.start
  lt : t.span.start < t.span.stop
  marks : t.span.Marks source t.lexeme
  dollar : t.kind = .variableName → t.lexeme.toList = '$' :: t.lexeme.toList.dropWhile (· == '$')

/-- A comment behind `lo`, and not further than `hi`. -/
structure CommentStands (source : List Char) (lo hi : Nat) (c : Comment) : Prop where
  marks : c.span.Marks source c.text
  lt : c.span.start < c.span.stop
  inside : c.span.Inside ⟨lo, hi⟩

/-- **An item behind `lo`**: first the comments, then the token. -/
structure Item.Stands (source : List Char) (lo : Nat) (i : Item) : Prop where
  token : TokenStands source lo i.token
  comments : ∀ c ∈ i.comments, CommentStands source lo i.token.span.start c

/-- **Items one behind the other** from `lo` on, up to the end of the text. -/
def Laid (env : Env) (lo : Nat) : List Item → Prop
  | [] => lo ≤ byteLength env.source ∧
      env.eof.span = ⟨byteLength env.source, byteLength env.source⟩
  | t :: us => t.Stands env.source lo ∧ Laid env t.token.span.stop us

section Laid

variable {env : Env} {lo : Nat} {ts us : List Item}

theorem Item.Stands.lower {source : List Char} {lo' : Nat} {i : Item} (h : i.Stands source lo)
    (hle : lo' ≤ lo) : i.Stands source lo' :=
  ⟨{ h.token with le := hle.trans h.token.le }, fun c hc =>
    { h.comments c hc with inside := (h.comments c hc).inside.widen hle (Nat.le_refl _) }⟩

theorem Item.Stands.stop_le {source : List Char} {i : Item} (h : i.Stands source lo) :
    lo ≤ i.token.span.stop :=
  h.token.le.trans (Nat.le_of_lt h.token.lt)

theorem Laid.lower {lo' : Nat} (h : Laid env lo ts) (hle : lo' ≤ lo) : Laid env lo' ts := by
  cases ts with
  | nil => exact ⟨hle.trans h.1, h.2⟩
  | cons t us => exact ⟨h.1.lower hle, h.2⟩

/-- What is left lies behind the same offset. -/
theorem Laid.suffix (h : Laid env lo ts) (hus : us <:+ ts) : Laid env lo us := by
  induction ts generalizing lo with
  | nil =>
    obtain rfl := List.suffix_nil.1 hus
    exact h
  | cons t ts ih =>
    rcases List.suffix_cons_iff.1 hus with rfl | hus
    · exact h
    · exact (ih h.2 hus).lower h.1.stop_le

/-- What lies behind two offsets lies behind both. -/
theorem Laid.max {lo' : Nat} (h : Laid env lo ts) (h' : Laid env lo' ts) :
    Laid env (max lo lo') ts := by
  rcases Nat.le_total lo lo' with hle | hle
  · rwa [Nat.max_eq_right hle]
  · rwa [Nat.max_eq_left hle]

/-- Items lie in the text. -/
theorem Laid.le (h : Laid env lo ts) : lo ≤ byteLength env.source :=
  (h.suffix (List.nil_suffix)).1

/-- **The next token**, or the end of the file, lies ahead. -/
theorem Laid.current (h : Laid env lo ts) :
    (env.current ts).span.Inside ⟨lo, byteLength env.source⟩ := by
  cases ts with
  | nil =>
    rw [Env.current, h.2]
    exact ⟨h.1, Nat.le_refl _, Nat.le_refl _⟩
  | cons t us => exact ⟨h.1.token.le, Nat.le_of_lt h.1.token.lt, h.1.token.marks.inside.stop_le⟩

end Laid

/-! ### The items of a text -/

/-- Tokens one behind the other. -/
def LaidTokens (source : List Char) (lo : Nat) : List Token → Prop
  | [] => lo ≤ byteLength source
  | t :: ts => TokenStands source lo t ∧ LaidTokens source t.span.stop ts

/-- Comments lie in front of the tokens that they are put to. -/
theorem laid_of_attachComments {env : Env} {lo mid : Nat} {pending : List Comment}
    {init : List Token} {us : List Item} {last : Item} (heof : ¬env.eof.kind.isTrivia = true)
    (hend : env.eof.span = ⟨byteLength env.source, byteLength env.source⟩) (hle : lo ≤ mid)
    (hinit : LaidTokens env.source mid init)
    (hpending : ∀ c ∈ pending, CommentStands env.source lo mid c)
    (hitems : attachComments pending (init ++ [env.eof]) = us ++ [last]) : Laid env lo us := by
  induction init generalizing lo mid pending us last with
  | nil =>
    rw [List.nil_append, attachComments_cons pending heof] at hitems
    have hlength := congrArg List.length hitems
    obtain rfl : us = [] := by simpa [attachComments] using hlength
    exact ⟨hle.trans hinit, hend⟩
  | cons t init ih =>
    obtain ⟨ht, hinit⟩ := hinit
    have hstep : ∀ c ∈ pending, CommentStands env.source lo t.span.start c := fun c hc =>
      { hpending c hc with inside := (hpending c hc).inside.widen (Nat.le_refl _) ht.le }
    rw [List.cons_append] at hitems
    by_cases htrivia : t.kind.isTrivia = true
    · rw [attachComments_comment pending htrivia] at hitems
      refine ih (hle.trans (ht.le.trans (Nat.le_of_lt ht.lt))) hinit ?_ hitems
      refine List.forall_mem_append.2 ⟨fun c hc => ?_, ?_⟩
      · exact { hstep c hc with
          inside := (hstep c hc).inside.widen (Nat.le_refl _) (Nat.le_of_lt ht.lt) }
      · intro c hc
        obtain rfl := List.mem_singleton.1 hc
        exact ⟨ht.marks, ht.lt, hle.trans ht.le, Nat.le_of_lt ht.lt, Nat.le_refl _⟩
    · rw [attachComments_cons pending htrivia] at hitems
      obtain ⟨vs, comments, hvs⟩ := exists_attachComments_concat [] init heof
      rw [hvs, ← List.cons_append] at hitems
      obtain rfl := List.append_inj_left' hitems rfl
      refine ⟨⟨{ ht with le := hle.trans ht.le }, hstep⟩, ih (Nat.le_refl _) hinit ?_ hvs⟩
      exact fun c hc => absurd hc List.not_mem_nil

theorem laidTokens_of_append {source : List Char} {before after : List Token}
    {eof : Token} {lo : Nat} (htokens : (tokenize source).tokens = before ++ after ++ [eof])
    (hkinds : ∀ t ∈ after, t.kind ≠ .eof) (hlo : ∀ t ∈ after, lo ≤ t.span.start)
    (hle : lo ≤ byteLength source) : LaidTokens source lo after := by
  induction after generalizing before lo with
  | nil => exact hle
  | cons t after ih =>
    have hsplit : (tokenize source).tokens = before ++ t :: (after ++ [eof]) := by
      rw [htokens, List.append_assoc, List.cons_append]
    have ht : t ∈ (tokenize source).tokens := by
      rw [hsplit]
      simp
    have hmarks := Token.marks ht
    refine ⟨⟨hlo t List.mem_cons_self, ?_, hmarks,
      (Source.tokenize_spelled source t ht).dollar⟩, ?_⟩
    · exact Source.tokens_nonempty ht (hkinds t List.mem_cons_self)
    · refine @ih (before ++ [t]) _ (by rw [htokens]; simp) ?_ ?_ hmarks.inside.stop_le
      · exact fun u hu => hkinds u (List.mem_cons_of_mem t hu)
      · exact fun u hu => Source.tokens_ordered hsplit (List.mem_append_left _ hu)

/-- **The items of a text lie in it**, from its start on. -/
theorem laid_tokenize (source : List Char) :
    ∃ ts comments eof, attachComments [] (tokenize source).tokens
      = ts ++ [⟨comments, eof⟩] ∧
      Laid ⟨source, eof⟩ 0 ts := by
  obtain ⟨init, htokens, hkinds⟩ := Source.tokens_eof source
  have heof : ¬TokenKind.eof.isTrivia = true := Bool.false_ne_true
  obtain ⟨ts, comments, hts⟩ := @exists_attachComments_concat [] init ⟨.eof, _, _⟩ heof
  have hlaid : LaidTokens source 0 init :=
    @laidTokens_of_append source [] init _ 0 htokens hkinds (fun _ _ => Nat.zero_le _)
      (Nat.zero_le _)
  refine ⟨ts, comments, _, htokens ▸ hts, ?_⟩
  exact @laid_of_attachComments ⟨source, _⟩ 0 0 [] init ts _ heof rfl (Nat.le_refl _) hlaid
    (by simp) hts

/-! ### Faults -/

/-- A fault at a place in the text. -/
def Fault.Lies (env : Env) (f : Fault) : Prop :=
  f.span.Inside ⟨0, byteLength env.source⟩

section Faults

variable {env : Env} {lo : Nat} {ts : List Item}

theorem Laid.faultAt_lies (h : Laid env lo ts) (kind : FaultKind) :
    (env.faultAt kind ts).Lies env :=
  h.current.widen (Nat.zero_le _) (Nat.le_refl _)

theorem Laid.unexpected_lies (h : Laid env lo ts) (expected : List TokenKind) :
    (env.unexpected expected ts).Lies env := by
  have hcurrent := h.current.widen (Nat.zero_le _) (Nat.le_refl _)
  cases ts with
  | nil => exact hcurrent
  | cons t us => exact hcurrent

theorem Laid.lies (h : Laid env lo ts) {f : Fault} (hf : f.span.Inside ⟨0, lo⟩) : f.Lies env :=
  hf.widen (Nat.zero_le _) h.le

end Faults

/-! ### Readings -/

/-- **A reading from `lo` on**: what it gives has a property up to the offset where the rest begins,
and so has what it reports. -/
structure Lays {ε α : Type} (env : Env) (lo : Nat) {ts : List Item} (r : Reading Item ε α ts)
    (P : Nat → α → Prop) (E : ε → Prop) : Prop where
  gives : ∀ a, r.outcome = .ok a → ∃ hi, lo ≤ hi ∧ Laid env hi r.rest ∧ P hi a
  fails : ∀ e, r.outcome = .error e → E e

section Readings

variable {ε α β : Type} {env : Env} {lo : Nat} {ts : List Item} {P : Nat → α → Prop}
  {Q : Nat → β → Prop} {E : ε → Prop}

theorem lays_done (h : Laid env lo ts) {a : α} (ha : P lo a) :
    Lays env lo (.done a : Reading Item ε α ts) P E := by
  refine ⟨fun b hb => ?_, nofun⟩
  obtain rfl : a = b := Except.ok.inj hb
  exact ⟨lo, Nat.le_refl lo, h, ha⟩

theorem lays_fail {e : ε} (he : E e) : Lays env lo (.fail e : Reading Item ε α ts) P E := by
  refine ⟨nofun, fun e' he' => ?_⟩
  obtain rfl : e = e' := Except.error.inj he'
  exact he

/-- What is given may be changed, with the offset where the rest begins at hand. -/
theorem Lays.map {r : Reading Item ε α ts} {f : α → β} (h : Lays env lo r P E)
    (hf : ∀ hi a, lo ≤ hi → P hi a → Q hi (f a)) : Lays env lo (r.map f) Q E := by
  obtain ⟨outcome, rest, suffix⟩ := r
  cases outcome with
  | ok a =>
    refine ⟨fun b hb => ?_, nofun⟩
    obtain rfl : f a = b := Except.ok.inj hb
    obtain ⟨hi, hle, hrest, ha⟩ := h.gives a rfl
    exact ⟨hi, hle, hrest, hf hi a hle ha⟩
  | error e =>
    refine ⟨nofun, fun e' he' => ?_⟩
    obtain rfl : e = e' := Except.error.inj he'
    exact h.fails e rfl

theorem Lays.mapError {ε' : Type} {r : Reading Item ε α ts} {f : ε → ε'} {E' : ε' → Prop}
    (h : Lays env lo r P E) (hf : ∀ e, E e → E' (f e)) : Lays env lo (r.mapError f) P E' := by
  obtain ⟨outcome, rest, suffix⟩ := r
  cases outcome with
  | ok a =>
    refine ⟨fun b hb => ?_, nofun⟩
    obtain rfl : a = b := Except.ok.inj hb
    exact h.gives a rfl
  | error e =>
    refine ⟨nofun, fun e' he' => ?_⟩
    obtain rfl : f e = e' := Except.error.inj he'
    exact hf e (h.fails e rfl)

theorem Lays.imp {P' : Nat → α → Prop} {r : Reading Item ε α ts} (h : Lays env lo r P E)
    (hP : ∀ hi a, lo ≤ hi → P hi a → P' hi a) : Lays env lo r P' E := by
  refine ⟨fun a ha => ?_, h.fails⟩
  obtain ⟨hi, hle, hrest, ha⟩ := h.gives a ha
  exact ⟨hi, hle, hrest, hP hi a hle ha⟩

/-- Readings one after the other, with the outcome of the first one at hand. -/
theorem Lays.andThen_outcome {r : Reading Item ε α ts}
    {next : α → (us : List Item) → us.length ≤ ts.length → Reading Item ε β us}
    (h : Lays env lo r P E)
    (hnext : ∀ a le mid, r.outcome = .ok a → lo ≤ mid → Laid env mid r.rest → P mid a →
      Lays env mid (next a r.rest le) Q E) : Lays env lo (r.andThen next) Q E := by
  obtain ⟨outcome, rest, suffix⟩ := r
  cases outcome with
  | ok a =>
    obtain ⟨mid, hmid, hrest, ha⟩ := h.gives a rfl
    have hlays := hnext a suffix.length_le mid rfl hmid hrest ha
    refine ⟨fun b hb => ?_, hlays.fails⟩
    obtain ⟨hi, hle, hlast, hb⟩ := hlays.gives b hb
    exact ⟨hi, hmid.trans hle, hlast, hb⟩
  | error e =>
    refine ⟨nofun, fun e' he' => ?_⟩
    obtain rfl : e = e' := Except.error.inj he'
    exact h.fails e rfl

/-- **Readings one after the other**: the second starts where the first left off. -/
theorem Lays.andThen {r : Reading Item ε α ts}
    {next : α → (us : List Item) → us.length ≤ ts.length → Reading Item ε β us}
    (h : Lays env lo r P E)
    (hnext : ∀ a us le mid, us <:+ ts → lo ≤ mid → Laid env mid us → P mid a →
      Lays env mid (next a us le) Q E) : Lays env lo (r.andThen next) Q E :=
  h.andThen_outcome fun a le mid _ hmid hrest ha => hnext a r.rest le mid r.suffix hmid hrest ha

/-- What is read further on is read from here on. -/
theorem lays_widen {us : List Item} {mid : Nat} {r : Reading Item ε α us} (hle : lo ≤ mid)
    (hr : Lays env mid r P E) (hus : us <:+ ts) : Lays env lo (r.widen hus) P E := by
  refine ⟨fun a ha => ?_, hr.fails⟩
  obtain ⟨hi, hhi, hrest, ha⟩ := hr.gives a ha
  exact ⟨hi, hle.trans hhi, hrest, ha⟩

/-- **Looking ahead**: behind the next item, or still in front of it. -/
theorem lays_onNext {p : Item → Bool}
    {yes : Item → (us : List Item) → us.length < ts.length → Reading Item ε α us}
    {no : Reading Item ε α ts} (h : Laid env lo ts)
    (hyes : ∀ t us lt, ts = t :: us → p t = true → t.Stands env.source lo →
      Laid env t.token.span.stop us → Lays env t.token.span.stop (yes t us lt) P E)
    (hno : Lays env lo no P E) : Lays env lo (Reading.onNext p ts yes no) P E := by
  cases ts with
  | nil => exact hno
  | cons t us =>
    rw [Reading.onNext]
    split
    · next ht =>
      exact lays_widen h.1.stop_le (hyes t us (Nat.lt_succ_self _) rfl ht h.1 h.2) _
    · exact hno

/-- Passing over one item. -/
theorem lays_behind {t : Item} {us : List Item} {r : Reading Item ε α us}
    (h : t.Stands env.source lo) (hr : Lays env t.token.span.stop r P E) :
    Lays env lo (.behind t r) P E :=
  lays_widen h.stop_le hr (List.suffix_cons t us)

/-- The next item, when it is taken. -/
structure Taken (source : List Char) (lo : Nat) (ts : List Item) (hi : Nat) (i : Item) : Prop where
  head : ts.head? = some i
  stands : i.Stands source lo
  stop_eq : i.token.span.stop = hi

theorem Taken.inside {source : List Char} {hi : Nat} {i : Item} (h : Taken source lo ts hi i) :
    i.token.span.Inside ⟨lo, hi⟩ :=
  ⟨h.stands.token.le, Nat.le_of_lt h.stands.token.lt, Nat.le_of_eq h.stop_eq⟩

theorem lays_expect {p : Item → Bool} {reason : List Item → ε} (h : Laid env lo ts)
    (hreason : E (reason ts)) :
    Lays env lo (Reading.expect p reason ts)
      (fun hi i => Taken env.source lo ts hi i ∧ p i = true) E :=
  lays_onNext h (fun _ _ _ hts hp hstands hus =>
    lays_done hus ⟨⟨hts ▸ rfl, hstands, rfl⟩, hp⟩) (lays_fail hreason)

theorem lays_skip {p : Item → Bool} (h : Laid env lo ts) :
    Lays env lo (Reading.skip p ts) (fun _ _ => True) E :=
  lays_onNext h (fun _ _ _ _ _ _ hus => lays_done hus trivial) (lays_done h trivial)

theorem lays_take? {p : Item → Bool} (h : Laid env lo ts) :
    Lays env lo (Reading.take? p ts) (fun _ _ => True) E :=
  lays_onNext h (fun _ _ _ _ _ _ hus => lays_done hus trivial) (lays_done h trivial)

end Readings

/-! ### Single tokens -/

/-- What a name spells is how it is written. -/
theorem Name.written_ofText (text : String) (span : Span) :
    (Name.ofText text span).written = text := by
  rw [Name.ofText]
  split
  · next cs hcs =>
    rw [Name.written, if_pos rfl]
    apply String.toList_injective
    rw [String.toList_append, hcs]
    exact congrArg ('\\' :: ·) String.toList_ofList
  · rw [Name.written]
    refine if_neg ?_
    dsimp only
    split <;> exact nofun

/-- A class name at its place. -/
def Name.Stands (source : List Char) (n : Name) : Prop :=
  n.span.Marks source n.written

/-- An identifier at its place. -/
def Ident.Stands (source : List Char) (i : Ident) : Prop :=
  i.span.Marks source i.name

/-- A variable at its place, where a dollar sign stands in front. -/
def Ident.StandsBehindDollar (source : List Char) (i : Ident) : Prop :=
  i.span.Marks source ("$" ++ i.name)

/-- **A span that heads what is left**: it begins at or behind `lo`, and neither begins nor stops
behind the next token. -/
structure Heads (env : Env) (lo : Nat) (start : Span) (ts : List Item) : Prop where
  lo_le : lo ≤ start.start
  le : start.start ≤ start.stop
  start_le : start.start ≤ (env.current ts).span.start
  stop_le : start.stop ≤ (env.current ts).span.stop

section Tokens

variable {env : Env} {lo : Nat} {ts us : List Item}

/-- Further on, the next token lies further on. -/
theorem Laid.current_le (h : Laid env lo ts) (hus : us <:+ ts) :
    (env.current ts).span.start ≤ (env.current us).span.start ∧
      (env.current ts).span.stop ≤ (env.current us).span.stop := by
  cases ts with
  | nil =>
    obtain rfl := List.suffix_nil.1 hus
    exact ⟨Nat.le_refl _, Nat.le_refl _⟩
  | cons t ts =>
    rcases List.suffix_cons_iff.1 hus with rfl | hus
    · exact ⟨Nat.le_refl _, Nat.le_refl _⟩
    · have hcurrent := (h.2.suffix hus).current
      exact ⟨(Nat.le_of_lt h.1.token.lt).trans hcurrent.start_le,
        hcurrent.start_le.trans hcurrent.le⟩

theorem Laid.heads (h : Laid env lo ts) : Heads env lo (env.current ts).span ts :=
  ⟨h.current.start_le, h.current.le, Nat.le_refl _, Nat.le_refl _⟩

theorem Heads.suffix {lo' : Nat} {start : Span} (hstart : Heads env lo' start ts)
    (h : Laid env lo ts) (hus : us <:+ ts) : Heads env lo' start us :=
  { hstart with
    start_le := hstart.start_le.trans (h.current_le hus).1
    stop_le := hstart.stop_le.trans (h.current_le hus).2 }

theorem Taken.current_eq {source : List Char} {hi : Nat} {i : Item} (env : Env)
    (h : Taken source lo ts hi i) : env.current ts = i.token := by
  cases ts with
  | nil => cases h.head
  | cons t us => exact congrArg Item.token (Option.some.inj h.head)

/-- A span that heads what is left, and the item that is taken. -/
theorem Heads.taken {source : List Char} {lo' hi : Nat} {start : Span} {i : Item}
    (hstart : Heads env lo' start ts) (h : Taken source lo ts hi i) :
    start.start ≤ i.token.span.start ∧ start.stop ≤ hi := by
  have hcurrent := h.current_eq env
  exact ⟨hcurrent ▸ hstart.start_le, h.stop_eq ▸ hcurrent ▸ hstart.stop_le⟩

theorem lays_expectMark (h : Laid env lo ts) (mark : Mark) :
    Lays env lo (expectMark env mark ts)
      (fun hi t => ∃ i, Taken env.source lo ts hi i ∧ i.token = t) (Fault.Lies env) :=
  (lays_expect h (h.unexpected_lies _)).map fun _ i _ ht => ⟨i, ht.1, rfl⟩

theorem lays_expectKeyword (h : Laid env lo ts) (word : Keyword) :
    Lays env lo (expectKeyword env word ts)
      (fun hi t => ∃ i, Taken env.source lo ts hi i ∧ i.token = t) (Fault.Lies env) :=
  (lays_expect h (h.unexpected_lies _)).map fun _ i _ ht => ⟨i, ht.1, rfl⟩

theorem lays_skipMark (h : Laid env lo ts) (mark : Mark) :
    Lays env lo (skipMark mark ts) (fun _ _ => True) (Fault.Lies env) :=
  lays_skip h

/-- The name that an item spells stands at it. -/
theorem Taken.name {source : List Char} {hi : Nat} {i : Item} (h : Taken source lo ts hi i) :
    (Name.ofText i.token.lexeme i.token.span).Stands source ∧
      (Name.ofText i.token.lexeme i.token.span).span = i.token.span := by
  have hspan : (Name.ofText i.token.lexeme i.token.span).span = i.token.span := by
    rw [Name.ofText]
    split <;> rfl
  refine ⟨?_, hspan⟩
  rw [Name.Stands, Name.written_ofText, hspan]
  exact h.stands.token.marks

theorem lays_readName (h : Laid env lo ts) :
    Lays env lo (readName env ts) (fun hi n => n.Stands env.source ∧ n.span.Inside ⟨lo, hi⟩)
      (Fault.Lies env) :=
  (lays_expect h (h.faultAt_lies _)).map fun _ _ _ ht =>
    ⟨ht.1.name.1, by rw [ht.1.name.2]; exact ht.1.inside⟩

theorem lays_readIdent (h : Laid env lo ts) :
    Lays env lo (readIdent env ts) (fun hi i => i.Stands env.source ∧ i.span.Inside ⟨lo, hi⟩)
      (Fault.Lies env) :=
  (lays_expect h (h.faultAt_lies _)).map fun _ _ _ ht => ⟨ht.1.stands.token.marks, ht.1.inside⟩

theorem lays_readMemberName (h : Laid env lo ts) :
    Lays env lo (readMemberName env ts)
      (fun hi i => i.Stands env.source ∧ i.span.Inside ⟨lo, hi⟩)
      (Fault.Lies env) :=
  (lays_expect h (h.faultAt_lies _)).map fun _ _ _ ht => ⟨ht.1.stands.token.marks, ht.1.inside⟩

/-- A variable behind the start of a statement, or at it. -/
theorem lays_readVariable {lo' : Nat} {start : Span} (h : Laid env lo ts)
    (hstart : Heads env lo' start ts) :
    Lays env lo (readVariable env ts) (fun hi i => i.StandsBehindDollar env.source ∧
      i.span.Inside ⟨lo, hi⟩ ∧ start.start ≤ i.span.start ∧ start.stop ≤ i.span.stop)
      (Fault.Lies env) := by
  refine (lays_expect h (h.unexpected_lies _)).map fun hi i _ ⟨ht, hkind⟩ => ?_
  have hlexeme := ht.stands.token.dollar (by simpa [isKind, Item.kind] using hkind)
  have hbefore := hstart.taken ht
  refine ⟨?_, ht.inside, hbefore.1, ht.stop_eq ▸ hbefore.2⟩
  have hname :
      "$" ++ String.ofList (i.token.lexeme.toList.dropWhile (· == '$')) = i.token.lexeme := by
    apply String.toList_injective
    rw [String.toList_append]
    exact (congrArg ('$' :: ·) String.toList_ofList).trans hlexeme.symm
  rw [Ident.StandsBehindDollar, hname]
  exact ht.stands.token.marks

theorem lays_readMoreNames (ts : List Item) {lo : Nat} (h : Laid env lo ts) :
    Lays env lo (readMoreNames env ts)
      (fun hi names => ∀ n ∈ names, n.Stands env.source ∧ n.span.Inside ⟨lo, hi⟩)
      (Fault.Lies env) := by
  unfold readMoreNames
  refine lays_onNext h (fun t us _ _ _ ht hus => ?_) (lays_done h (by simp))
  refine (lays_readName hus).andThen fun n vs _ mid _ hmid hvs hn => ?_
  refine (lays_readMoreNames vs hvs).map fun hi names hhi hnames => ?_
  refine List.forall_mem_cons.2 ⟨⟨hn.1, hn.2.widen ht.stop_le hhi⟩, fun m hm => ?_⟩
  exact ⟨(hnames m hm).1, (hnames m hm).2.widen (ht.stop_le.trans hmid) (Nat.le_refl _)⟩
termination_by ts.length
decreasing_by omega

theorem lays_readNames (h : Laid env lo ts) :
    Lays env lo (readNames env ts)
      (fun hi names => ∀ n ∈ names, n.Stands env.source ∧ n.span.Inside ⟨lo, hi⟩)
      (Fault.Lies env) := by
  refine (lays_readName h).andThen fun n us _ mid _ hmid hus hn => ?_
  refine (lays_readMoreNames us hus).map fun hi names hhi hnames => ?_
  refine List.forall_mem_cons.2 ⟨⟨hn.1, hn.2.widen (Nat.le_refl _) hhi⟩, fun m hm => ?_⟩
  exact ⟨(hnames m hm).1, (hnames m hm).2.widen hmid (Nat.le_refl _)⟩

/-- What is left behind the next token lies behind it. -/
theorem Laid.behind {rest : List Item} (h : Laid env lo us) (hrest : rest <:+ us)
    (hlt : rest.length < us.length) : Laid env (env.current us).span.stop rest := by
  cases us with
  | nil => exact absurd hlt (Nat.not_lt_zero _)
  | cons t us =>
    refine h.2.suffix ((List.suffix_cons_iff.1 hrest).resolve_left fun heq => ?_)
    exact Nat.lt_irrefl _ (heq ▸ hlt)

/-- **A reading passes a token** that is first among items further on when it leaves less than
these. -/
theorem Lays.passed {ε α : Type} {r : Reading Item ε α ts} {P : Nat → α → Prop}
    {E : ε → Prop} {mid : Nat} (hr : Lays env lo r P E) (h : Laid env mid us)
    (hbehind : ∀ a, r.outcome = .ok a → r.rest <:+ us ∧ r.rest.length < us.length)
    (hmono : ∀ hi hi' a, hi ≤ hi' → P hi a → P hi' a) :
    Lays env lo r (fun hi a => P hi a ∧ (env.current us).span.stop ≤ hi) E := by
  refine ⟨fun a ha => ?_, hr.fails⟩
  obtain ⟨hi, hle, hrest, hP⟩ := hr.gives a ha
  obtain ⟨hsuffix, hlt⟩ := hbehind a ha
  exact ⟨max hi (env.current us).span.stop, hle.trans (Nat.le_max_left _ _),
    hrest.max (h.behind hsuffix hlt), hmono _ _ a (Nat.le_max_left _ _) hP, Nat.le_max_right _ _⟩

/-- Nothing is taken where nothing is left. -/
theorem lays_nil {ε α : Type} {r : Reading Item ε α []} {P Q : Nat → α → Prop}
    {E : ε → Prop} (hr : Lays env lo r Q E) (hadvances : r.Advances) : Lays env lo r P E :=
  ⟨fun a ha => absurd (hadvances a ha) (Nat.not_lt_zero _), hr.fails⟩

end Tokens

/-! ### Passing over -/

section Passing

variable {env : Env} {lo : Nat} {ts : List Item}

theorem lays_skipToClose {opening : Span} (depth : Nat) (h : Laid env lo ts)
    (hopening : opening.Inside ⟨0, lo⟩) :
    Lays env lo (skipToClose opening depth ts) (fun hi s => s = ⟨opening.start, hi⟩)
      (Fault.Lies env) := by
  induction ts generalizing lo depth with
  | nil => exact lays_fail (h.lies hopening)
  | cons t us ih =>
    obtain ⟨ht, hus⟩ := h
    have hnext : opening.Inside ⟨0, t.token.span.stop⟩ :=
      hopening.widen (Nat.le_refl _) ht.stop_le
    rw [skipToClose.eq_def]
    refine lays_behind ht ?_
    split
    · exact ih (depth + 1) hus hnext
    split
    · split
      · refine lays_done hus (Span.merge_eq ?_ hnext.stop_le)
        exact hopening.le.trans (hopening.stop_le.trans ht.token.le)
      · exact ih _ hus hnext
    · exact ih depth hus hnext

theorem lays_skipBlock (h : Laid env lo ts) :
    Lays env lo (skipBlock env ts) (fun hi s => s.Inside ⟨lo, hi⟩) (Fault.Lies env) := by
  refine (lays_expectMark h _).andThen fun opening us _ mid _ _ hus hopening => ?_
  obtain ⟨i, ht, rfl⟩ := hopening
  refine (lays_skipToClose 0 hus (ht.inside.widen (Nat.zero_le _) (Nat.le_refl _))).imp ?_
  rintro hi s hle rfl
  exact ⟨ht.inside.start_le, ht.inside.le.trans (ht.inside.stop_le.trans hle), Nat.le_refl _⟩

theorem lays_skipAttribute {opening : Span} (depth : Nat) (h : Laid env lo ts)
    (hopening : opening.Inside ⟨0, lo⟩) :
    Lays env lo (skipAttribute opening depth ts) (fun _ _ => True) (Fault.Lies env) := by
  induction ts generalizing lo depth with
  | nil => exact lays_fail (h.lies hopening)
  | cons t us ih =>
    obtain ⟨ht, hus⟩ := h
    have hnext : opening.Inside ⟨0, t.token.span.stop⟩ :=
      hopening.widen (Nat.le_refl _) ht.stop_le
    rw [skipAttribute.eq_def]
    refine lays_behind ht ?_
    split
    · exact ih (depth + 1) hus hnext
    split
    · split
      · exact lays_done hus trivial
      · exact ih _ hus hnext
    · exact ih depth hus hnext

theorem lays_skipAttributes (ts : List Item) {lo : Nat} (h : Laid env lo ts) :
    Lays env lo (skipAttributes ts) (fun _ _ => True) (Fault.Lies env) := by
  unfold skipAttributes
  refine lays_onNext h (fun t us _ _ _ ht hus => ?_) (lays_done h trivial)
  refine (lays_skipAttribute 0 hus ⟨Nat.zero_le _, Nat.le_of_lt ht.token.lt,
    Nat.le_refl _⟩).andThen ?_
  exact fun _ vs _ _ _ _ hvs _ => lays_skipAttributes vs hvs
termination_by ts.length
decreasing_by omega

theorem lays_skipExpression {stops : Item → Bool} (depth stop : Nat) (h : Laid env lo ts) :
    Lays env lo (skipExpression stops depth stop ts) (fun _ _ => True) (Fault.Lies env) := by
  induction ts generalizing lo depth stop with
  | nil => exact lays_done h trivial
  | cons t us ih =>
    rw [skipExpression]
    split
    · exact lays_done h trivial
    · exact lays_behind h.1 (ih _ _ h.2)

theorem lays_readExpression {stops : Item → Bool} (h : Laid env lo ts) :
    Lays env lo (readExpression env stops ts) (fun _ _ => True) (Fault.Lies env) :=
  (lays_skipExpression 0 _ h).map fun _ _ _ _ => trivial

theorem lays_readDefault {stops : Item → Bool} (h : Laid env lo ts) :
    Lays env lo (readDefault env stops ts) (fun _ _ => True) (Fault.Lies env) :=
  lays_onNext h (fun _ _ _ _ _ _ hus => (lays_readExpression hus).map fun _ _ _ _ => trivial)
    (lays_done h trivial)

end Passing

end Declaration

end PhpHandbook
