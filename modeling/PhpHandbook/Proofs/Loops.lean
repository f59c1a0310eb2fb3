import PhpHandbook.Declaration.Cursor

/-!
# Loops over items

A reader that calls itself on what it has left is a loop.  Here a loop is told round by round: a
round starts in a state and in front of some items, and either leaves the loop with an answer or
goes on in another state and in front of other items.  Nothing in the form of a loop says that this
comes to an end, and its brackets are counted with an integer that could become negative.

A loop is sound when its rounds tell what a reader does, go on with fewer items only, and keep the
count of brackets at zero or more.  Soundness is about a single round; that a sound loop runs to its
end follows from it.

## Main definitions

* `Loop`, `Round`: a loop, and what one of its rounds comes to.
* `Loop.Sound`: all rounds fit the reader whose loop it is.
* `Loop.Runs`: a number of rounds up to an answer.
* `Loop.ofReader`, `bracketLoop`: the loop of a reader, and of one that counts brackets.

## Main statements

* `Loop.Sound.runs`: a sound loop runs to its end.
* `Loop.sound_ofReader`, `bracketLoop_sound`: what makes such loops sound.
-/

namespace PhpHandbook.Declaration

open Source (Span)

/-! ### Loops and their rounds -/

/-- What a round of a loop comes to, where `σ` is what the loop carries from round to round. -/
inductive Round (σ α : Type) where
  /-- The loop is left in front of `rest` with an answer, and with its brackets counted to
  `depth`. -/
  | exit (depth : Int) (rest : List Item) (answer : α)
  /-- The loop goes on in front of `rest`; `finish` makes its answer from that of the later
  rounds. -/
  | again (state : σ) (rest : List Item) (finish : α → α)

/-- **A loop**: its rounds, and the answer that the readers give when they enter it. -/
structure Loop where
  State : Type
  Answer : Type
  /-- How many brackets are open in a state, as the loop counts them. -/
  depth : State → Int := fun _ => 0
  /-- The states in which a round may start. -/
  Valid : State → Prop := fun _ => True
  round : State → List Item → Round State Answer
  answer : State → List Item → Answer

namespace Loop

/-- **A round fits** when it keeps the count of brackets at zero or more, leaves fewer tokens if the
loop goes on, and tells what the readers do. -/
def Fits (l : Loop) (s : l.State) (ts : List Item) : Round l.State l.Answer → Prop
  | .exit depth us a => 0 ≤ depth ∧ us <:+ ts ∧ l.answer s ts = a
  | .again s' us finish =>
    l.Valid s' ∧ us <:+ ts ∧ us.length < ts.length ∧ l.answer s ts = finish (l.answer s' us)

/-- **A loop is sound** when all its rounds fit that start in a valid state. -/
structure Sound (l : Loop) : Prop where
  depth_nonneg : ∀ s, l.Valid s → 0 ≤ l.depth s
  fits : ∀ s ts, l.Valid s → l.Fits s ts (l.round s ts)

/-- A loop that runs for `n` rounds and then has an answer. -/
inductive Runs (l : Loop) : Nat → l.State → List Item → l.Answer → Prop where
  | exit {s : l.State} {ts us : List Item} {d : Int} {a : l.Answer}
      (h : l.round s ts = .exit d us a) : Runs l 1 s ts a
  | again {n : Nat} {s s' : l.State} {ts us : List Item} {finish : l.Answer → l.Answer}
      {a : l.Answer} (h : l.round s ts = .again s' us finish) (hruns : Runs l n s' us a) :
      Runs l (n + 1) s ts (finish a)

/-- **A sound loop runs to its end**, in no more rounds than there are tokens and one, and with the
answer that the readers give. -/
theorem Sound.runs {l : Loop} (h : l.Sound) (s : l.State) (ts : List Item) (hs : l.Valid s) :
    ∃ n ≤ ts.length + 1, l.Runs n s ts (l.answer s ts) := by
  induction hlength : ts.length using Nat.strongRecOn generalizing s ts with
  | ind k ih =>
    have hfits := h.fits s ts hs
    cases hround : l.round s ts with
    | exit d us a =>
      rw [hround] at hfits
      rw [hfits.2.2]
      exact ⟨1, by omega, .exit hround⟩
    | again s' us finish =>
      rw [hround] at hfits
      obtain ⟨hs', -, hlt, hanswer⟩ := hfits
      obtain ⟨n, hn, hruns⟩ := ih us.length (by omega) s' us hs' rfl
      rw [hanswer]
      exact ⟨n + 1, by omega, .again hround hruns⟩

end Loop

/-! ### Loops of readers -/

/-- What a reader gives and what it leaves. -/
def answerOf {α : Type} {ts : List Item} (r : Read α ts) : Except Fault α × List Item :=
  (r.outcome, r.rest)

/-- What a round of a reader comes to. -/
inductive Turn (σ α : Type) where
  /-- The reader is done. -/
  | stop (value : α)
  /-- The reader goes on; `finish` makes its value from that of the later rounds. -/
  | go (state : σ) (finish : α → α)

/-- What a reader does behind a round. -/
def Turn.follow {σ α : Type} {n : Nat} (read : σ → (ts : List Item) → Read α ts) :
    Turn σ α → (us : List Item) → us.length ≤ n → Read α us
  | .stop a, _, _ => .done a
  | .go s finish, us, _ => (read s us).map finish

/-- A reader's round leaves fewer tokens if it goes on. -/
def Proceeds {σ α : Type} {ts : List Item} (r : Read (Turn σ α) ts) : Prop :=
  ∀ s finish, r.outcome = .ok (.go s finish) → r.rest.length < ts.length

/-- What a reader's round is as a round of a loop. -/
def roundOf {σ α : Type} {ts : List Item} (r : Read (Turn σ α) ts) :
    Round σ (Except Fault α × List Item) :=
  match r.outcome with
  | .error e => .exit 0 r.rest (.error e, r.rest)
  | .ok (.stop a) => .exit 0 r.rest (.ok a, r.rest)
  | .ok (.go s finish) => .again s r.rest fun answer => (answer.1.map finish, answer.2)

/-- The loop of a reader that counts no brackets. -/
def Loop.ofReader {σ α : Type} (round : σ → (ts : List Item) → Read (Turn σ α) ts)
    (read : σ → (ts : List Item) → Read α ts) : Loop where
  State := σ
  Answer := Except Fault α × List Item
  round s ts := roundOf (round s ts)
  answer s ts := answerOf (read s ts)

section Readers

variable {σ α : Type} {ts : List Item}

/-- **A reader's loop is sound** when the reader is its round with itself behind it, and the round
leaves fewer tokens if it goes on. -/
theorem Loop.sound_ofReader {round : σ → (ts : List Item) → Read (Turn σ α) ts}
    {read : σ → (ts : List Item) → Read α ts}
    (hread : ∀ s ts, read s ts = (round s ts).andThen (Turn.follow read))
    (hround : ∀ s ts, Proceeds (round s ts)) : (Loop.ofReader round read).Sound where
  depth_nonneg _ _ := Int.le_refl 0
  fits s ts _ := by
    have hs := hread s ts
    have hproceeds := hround s ts
    show Loop.Fits (.ofReader round read) s ts (roundOf (round s ts))
    generalize round s ts = r at hs hproceeds
    obtain ⟨outcome, rest, suffix⟩ := r
    rcases outcome with e | (a | ⟨s', finish⟩)
    · exact ⟨Int.le_refl 0, suffix, congrArg answerOf hs⟩
    · exact ⟨Int.le_refl 0, suffix, congrArg answerOf hs⟩
    · refine ⟨trivial, suffix, hproceeds _ _ rfl, (congrArg answerOf hs).trans ?_⟩
      simp only [Loop.ofReader, answerOf, Reading.andThen, Turn.follow, Reading.map, Reading.widen]
      cases (read s' rest).outcome <;> rfl

theorem proceeds_of_advances {r : Read (Turn σ α) ts} (h : r.Advances) : Proceeds r :=
  fun _ _ hr => h _ hr

theorem proceeds_stop (a : α) : Proceeds (.done (.stop a) : Read (Turn σ α) ts) :=
  fun _ _ h => nomatch h

theorem Proceeds.onNext {p : Item → Bool}
    {yes : Item → (us : List Item) → us.length < ts.length → Read (Turn σ α) us}
    {no : Read (Turn σ α) ts} (h : Proceeds no) : Proceeds (Reading.onNext p ts yes no) := by
  cases ts with
  | nil => exact h
  | cons t us =>
    simp only [Reading.onNext]
    split
    · exact proceeds_of_advances (Reading.advances_behind t _)
    · exact h

end Readers

/-! ### Brackets -/

/-- What a loop carries that is left when its first bracket is closed. -/
structure Unclosed where
  opening : Span
  depth : Int

/-- The loop of a reader that passes over everything up to the bracket that closes the first one.
The first bracket counts, so a round starts with at least one that is open. -/
def bracketLoop {α : Type} (opens closes : Item → Bool) (fault : Span → Fault)
    (value : Span → Item → α)
    (read : Span → Nat → (ts : List Item) → Read α ts) : Loop where
  State := Unclosed
  Answer := Except Fault α × List Item
  depth s := s.depth
  Valid s := 1 ≤ s.depth
  answer s ts := answerOf (read s.opening (s.depth - 1).toNat ts)
  round s
    | [] => .exit s.depth [] (.error (fault s.opening), [])
    | t :: us =>
      if opens t then .again ⟨s.opening, s.depth + 1⟩ us id
      else if closes t then
        if s.depth - 1 = 0 then .exit (s.depth - 1) us (.ok (value s.opening t), us)
        else .again ⟨s.opening, s.depth - 1⟩ us id
      else .again s us id

section Brackets

variable {α : Type} {opens closes : Item → Bool} {fault : Span → Fault}
  {value : Span → Item → α} {read : Span → Nat → (ts : List Item) → Read α ts}

theorem bracketLoop_sound
    (hnil : ∀ opening n, answerOf (read opening n []) = (.error (fault opening), []))
    (hopen : ∀ opening n t us, opens t →
      answerOf (read opening n (t :: us)) = answerOf (read opening (n + 1) us))
    (hlast : ∀ opening t us, ¬opens t → closes t →
      answerOf (read opening 0 (t :: us)) = (.ok (value opening t), us))
    (hclose : ∀ opening n t us, ¬opens t → closes t →
      answerOf (read opening (n + 1) (t :: us)) = answerOf (read opening n us))
    (hother : ∀ opening n t us, ¬opens t → ¬closes t →
      answerOf (read opening n (t :: us)) = answerOf (read opening n us)) :
    (bracketLoop opens closes fault value read).Sound where
  depth_nonneg s hs := Int.le_trans (by decide) hs
  fits := by
    rintro ⟨opening, depth⟩ ts (hs : 1 ≤ depth)
    obtain ⟨n, rfl⟩ : ∃ n : Nat, depth = n + 1 := ⟨(depth - 1).toNat, by omega⟩
    cases ts with
    | nil => exact ⟨Int.le_trans (by decide) hs, List.suffix_refl _, hnil opening _⟩
    | cons t us =>
      have hsuf := List.suffix_cons t us
      have hlt : us.length < (t :: us).length := Nat.lt_succ_self _
      simp only [bracketLoop]
      split
      · next ht =>
        refine ⟨?_, hsuf, hlt, ?_⟩
        · show (1 : Int) ≤ n + 1 + 1
          omega
        · have := hopen opening n t us ht
          simpa [bracketLoop] using this
      · next ht =>
        split
        · next hc =>
          split
          · next hzero =>
            obtain rfl : n = 0 := by omega
            exact ⟨by omega, hsuf, hlast opening t us ht hc⟩
          · next hzero =>
            obtain ⟨m, rfl⟩ : ∃ m, n = m + 1 := ⟨n - 1, by omega⟩
            refine ⟨?_, hsuf, hlt, ?_⟩
            · show (1 : Int) ≤ (m + 1 : Nat) + 1 - 1
              omega
            · have := hclose opening m t us ht hc
              simpa [bracketLoop] using this
        · next hc =>
          refine ⟨hs, hsuf, hlt, ?_⟩
          exact hother opening _ t us ht hc

end Brackets

end PhpHandbook.Declaration
