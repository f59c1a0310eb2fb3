import PhpHandbook.Proofs.Nesting
import PhpHandbook.Proofs.WithoutSpans

/-!
# Reading two texts side by side

Two texts have the same items but for some places: the content of blocks, and what stands around the
equals sign behind a name.  A reader that works its way through the first text works its way through
the second in the same manner, as long as it does not enter such a place: it sees the same kinds of
tokens, so it takes the same branches.

Whether a reader has entered such a place is told from outside, by an offset of the first text that
marks it: where the block stops, or the name.  Once a reader is inside a block, no block that is
left stops there, and once a name is taken, no item that is left does.  So it is enough to ask of a
reading that what each of these offsets marks is still ahead of it.

## Main definitions

* `Differ`: a place where two texts may differ, and its mark.
* `Aligned`: the items of two texts, side by side.
* `Follows`: a reading of the second text goes along with one of the first.

## Main statements

* `Aligned.cases`: what stands first in two texts.
* `Follows.andThen`, `follows_onNext`: sequences and branches of readers.
-/

namespace PhpHandbook.Declaration

open Source (Span Token TokenKind byteLength)

/-! ### Items side by side -/

/-- Whether a token opens a square bracket, that of an attribute included. -/
def opensSquare (k : TokenKind) : Bool :=
  k == .mark .attributeOpen || k == .mark .bracketOpen

/-- Whether a token closes a square bracket. -/
def closesSquare (k : TokenKind) : Bool :=
  k == .mark .bracketClose

/-- Braces and square brackets are balanced. -/
structure BracketsBalanced (ks : List TokenKind) : Prop where
  braces : Balanced opensBlock closesBlock ks
  squares : Balanced opensSquare closesSquare ks

instance (ks : List TokenKind) : Decidable (BracketsBalanced ks) :=
  decidable_of_iff (Balanced opensBlock closesBlock ks ∧ Balanced opensSquare closesSquare ks)
    ⟨fun h => ⟨h.1, h.2⟩, fun h => ⟨h.braces, h.squares⟩⟩

/-- An item that stands in both texts, with the same text in front of it. -/
structure Kept (o₁ o₂ : Nat) (gap lexeme : List Char) (t₁ t₂ : Item) : Prop where
  same : Same t₁ t₂
  span₁ : t₁.token.span
    = ⟨o₁ + byteLength gap, o₁ + byteLength gap + byteLength lexeme⟩
  span₂ : t₂.token.span
    = ⟨o₂ + byteLength gap, o₂ + byteLength gap + byteLength lexeme⟩

/-- **Items in which two texts may differ**, marked by an offset of the first text: the content of a
block, and what stands around the equals sign behind a name. -/
inductive Differ : (t₁ : Item) → (body₁ : List Item) → (c₁ t₂ : Item) →
    (body₂ : List Item) → (c₂ : Item) →
    (mark : Nat) → Prop where
  | block {t₁ t₂ c₁ c₂ : Item} {body₁ body₂ : List Item}
      (hopen : isMark .braceOpen t₁) (hbody₁ : BracketsBalanced (kinds body₁))
      (hbody₂ : BracketsBalanced (kinds body₂)) (hc₁ : isMark .braceClose c₁)
      (hc₂ : isMark .braceClose c₂) :
      Differ t₁ body₁ c₁ t₂ body₂ c₂ c₁.token.span.stop
  | assigned {t₁ t₂ c₁ c₂ : Item} (hname : isNaming t₁) (hequals : isMark .equals c₁)
      (hc : Same c₁ c₂) : Differ t₁ [] c₁ t₂ [] c₂ t₁.token.span.stop

/-- **Items side by side**, in what is left of two texts.  They stand in both texts but for some
places where they differ; `marks` are the offsets that mark these in the first text. -/
inductive AlignedAt : (marks : List Nat) → (o₁ : Nat) → (x₁ : List Char) →
    (ts₁ : List Item) →
    (o₂ : Nat) → (x₂ : List Char) → (ts₂ : List Item) → Prop where
  | nil {o₁ o₂ : Nat} {x₁ x₂ : List Char} : AlignedAt [] o₁ x₁ [] o₂ x₂ []
  | keep {marks : List Nat} {o₁ o₂ : Nat} {gap lexeme x₁ x₂ : List Char} {t₁ t₂ : Item}
      {us₁ us₂ : List Item} (ht : Kept o₁ o₂ gap lexeme t₁ t₂)
      (hus : AlignedAt marks (o₁ + byteLength (gap ++ lexeme)) x₁ us₁
        (o₂ + byteLength (gap ++ lexeme)) x₂ us₂) :
      AlignedAt marks o₁ (gap ++ lexeme ++ x₁) (t₁ :: us₁) o₂ (gap ++ lexeme ++ x₂)
        (t₂ :: us₂)
  | differ {marks : List Nat} {o₁ o₂ mark : Nat} {gap lexeme old new x₁ x₂ : List Char}
      {t₁ t₂ c₁ c₂ : Item} {body₁ body₂ us₁ us₂ : List Item}
      (ht : Kept o₁ o₂ gap lexeme t₁ t₂)
      (hdiffer : Differ t₁ body₁ c₁ t₂ body₂ c₂ mark)
      (hus : AlignedAt marks (o₁ + byteLength (gap ++ lexeme ++ old)) x₁ us₁
        (o₂ + byteLength (gap ++ lexeme ++ new)) x₂ us₂) :
      AlignedAt (mark :: marks)
        o₁ (gap ++ lexeme ++ old ++ x₁) (t₁ :: (body₁ ++ c₁ :: us₁))
        o₂ (gap ++ lexeme ++ new ++ x₂) (t₂ :: (body₂ ++ c₂ :: us₂))

/-- Items side by side within the texts that they come from. -/
structure Aligned (env₁ env₂ : Env) (marks : List Nat) (ts₁ ts₂ : List Item) : Prop where
  texts : ∃ before₁ x₁ before₂ x₂, env₁.source = before₁ ++ x₁ ∧
    env₂.source = before₂ ++ x₂ ∧
    AlignedAt marks (byteLength before₁) x₁ ts₁ (byteLength before₂) x₂ ts₂
  ordered : Ordered ts₁

/-- The first items are where the texts differ. -/
structure Marked (env₁ env₂ : Env) (marks : List Nat) (ts₁ ts₂ : List Item)
    (t₁ c₁ : Item) (body₁ us₁ : List Item) (t₂ c₂ : Item) (body₂ us₂ : List Item)
    (mark : Nat) (marks' : List Nat) : Prop where
  marks_eq : marks = mark :: marks'
  items₁ : ts₁ = t₁ :: (body₁ ++ c₁ :: us₁)
  items₂ : ts₂ = t₂ :: (body₂ ++ c₂ :: us₂)
  same : Same t₁ t₂
  differ : Differ t₁ body₁ c₁ t₂ body₂ c₂ mark
  rest : Aligned env₁ env₂ marks' us₁ us₂
  /-- Once this place is entered, nothing that is left is marked by its offset. -/
  lost : ∀ vs, vs <:+ body₁ ++ c₁ :: us₁ → ¬Ahead vs mark

/-- **Behind the first item of a place where texts differ**, nothing is marked by its offset. -/
theorem Differ.lost {t₁ c₁ t₂ c₂ : Item} {body₁ body₂ us vs : List Item} {mark : Nat}
    (h : Differ t₁ body₁ c₁ t₂ body₂ c₂ mark)
    (hordered : Ordered (t₁ :: (body₁ ++ c₁ :: us))) (hvs : vs <:+ body₁ ++ c₁ :: us) :
    ¬Ahead vs mark := by
  cases h with
  | block hopen hbody₁ hbody₂ hc₁ hc₂ =>
    exact not_ahead_of_balanced (hordered.suffix (List.suffix_cons _ _)) hbody₁.braces hc₁ hvs
  | assigned hname hequals hc =>
    intro hahead
    obtain ⟨i, hi, hstop⟩ := hahead.exists_mem
    exact absurd hstop.symm (Nat.ne_of_lt (List.rel_of_pairwise_cons hordered (hvs.subset hi)))

theorem Differ.ahead {t₁ c₁ t₂ c₂ : Item} {body₁ body₂ : List Item} {mark : Nat}
    (h : Differ t₁ body₁ c₁ t₂ body₂ c₂ mark) (us : List Item) :
    Ahead (t₁ :: (body₁ ++ c₁ :: us)) mark := by
  cases h with
  | block hopen hbody₁ hbody₂ hc₁ hc₂ =>
    exact .inl ⟨t₁, body₁, c₁, us, List.suffix_refl _, hopen, hbody₁.braces, hc₁, rfl⟩
  | assigned hname hequals hc =>
    exact .inr ⟨t₁, c₁, us, List.suffix_refl _, hname, hequals, rfl⟩

/-- What starts with a brace is a block. -/
theorem Differ.of_open {t₁ c₁ t₂ c₂ : Item} {body₁ body₂ : List Item} {mark : Nat}
    (h : Differ t₁ body₁ c₁ t₂ body₂ c₂ mark) (hopen : isMark .braceOpen t₁) :
    BracketsBalanced (kinds body₁) ∧ BracketsBalanced (kinds body₂) ∧
      isMark .braceClose c₁ ∧ isMark .braceClose c₂ := by
  cases h with
  | block _ hbody₁ hbody₂ hc₁ hc₂ => exact ⟨hbody₁, hbody₂, hc₁, hc₂⟩
  | assigned hname => exact absurd hname (not_isNaming_of_mark hopen)

section Aligned

variable {env₁ env₂ : Env} {marks : List Nat} {ts₁ ts₂ : List Item}

/-- **What stands first** in items side by side. -/
theorem Aligned.cases (h : Aligned env₁ env₂ marks ts₁ ts₂) :
    (marks = [] ∧ ts₁ = [] ∧ ts₂ = []) ∨
    (∃ t₁ us₁ t₂ us₂, ts₁ = t₁ :: us₁ ∧ ts₂ = t₂ :: us₂ ∧
      Same t₁ t₂ ∧ Aligned env₁ env₂ marks us₁ us₂) ∨
    ∃ t₁ c₁ body₁ us₁ t₂ c₂ body₂ us₂ mark marks',
      Marked env₁ env₂ marks ts₁ ts₂ t₁ c₁ body₁ us₁ t₂ c₂ body₂ us₂ mark
        marks' := by
  obtain ⟨⟨before₁, x₁, before₂, x₂, hs₁, hs₂, hat⟩, hordered⟩ := h
  cases hat with
  | nil => exact .inl ⟨rfl, rfl, rfl⟩
  | @keep _ _ _ gap lexeme y₁ y₂ t₁ t₂ us₁ us₂ ht hus =>
    refine .inr (.inl ⟨t₁, us₁, t₂, us₂, rfl, rfl, ht.same, ?_,
      hordered.suffix (List.suffix_cons _ _)⟩)
    refine ⟨before₁ ++ (gap ++ lexeme), y₁, before₂ ++ (gap ++ lexeme), y₂, ?_, ?_, ?_⟩
    · exact hs₁.trans (List.append_assoc _ _ _).symm
    · exact hs₂.trans (List.append_assoc _ _ _).symm
    · rwa [Source.byteLength_append before₁, Source.byteLength_append before₂]
  | @differ marks' _ _ mark gap lexeme old new y₁ y₂ t₁ t₂ c₁ c₂ body₁ body₂
      us₁ us₂ ht hdiffer hus =>
    have hus₁ : us₁ <:+ t₁ :: (body₁ ++ c₁ :: us₁) :=
      ((List.suffix_cons c₁ us₁).trans (List.suffix_append _ _)).trans (List.suffix_cons _ _)
    refine .inr (.inr ⟨t₁, c₁, body₁, us₁, t₂, c₂, body₂, us₂, mark, marks', rfl,
      rfl, rfl, ht.same, hdiffer, ⟨?_, hordered.suffix hus₁⟩,
      fun vs hvs => hdiffer.lost hordered hvs⟩)
    refine ⟨before₁ ++ (gap ++ lexeme ++ old), y₁, before₂ ++ (gap ++ lexeme ++ new), y₂,
      ?_, ?_, ?_⟩
    · exact hs₁.trans (List.append_assoc _ _ _).symm
    · exact hs₂.trans (List.append_assoc _ _ _).symm
    · rwa [Source.byteLength_append before₁, Source.byteLength_append before₂]

theorem Aligned.marks_ahead (h : Aligned env₁ env₂ marks ts₁ ts₂) :
    ∀ e ∈ marks, Ahead ts₁ e := by
  obtain ⟨⟨before₁, x₁, before₂, x₂, -, -, hat⟩, -⟩ := h
  generalize byteLength before₁ = o₁ at hat
  generalize byteLength before₂ = o₂ at hat
  clear before₁ before₂
  induction hat with
  | nil => exact nofun
  | keep ht hus ih => exact fun e he => (ih e he).mono (List.suffix_cons _ _)
  | @differ _ _ _ _ _ _ _ _ _ _ t₁ _ c₁ _ body₁ _ us₁ _ ht hdiffer hus ih =>
    intro e he
    rcases List.mem_cons.1 he with rfl | he
    · exact hdiffer.ahead us₁
    · have hus₁ : us₁ <:+ t₁ :: (body₁ ++ c₁ :: us₁) :=
        ((List.suffix_cons c₁ us₁).trans (List.suffix_append _ _)).trans (List.suffix_cons _ _)
      exact (ih e he).mono hus₁

/-- **Behind the first items**, if no place where the texts differ starts with them. -/
theorem Aligned.tail {t₁ t₂ : Item} {us₁ us₂ : List Item}
    (h : Aligned env₁ env₂ marks (t₁ :: us₁) (t₂ :: us₂))
    (hahead : ∀ e ∈ marks, Ahead us₁ e) :
    Aligned env₁ env₂ marks us₁ us₂ := by
  rcases h.cases with ⟨-, hnil, -⟩ | ⟨_, _, _, _, h₁, h₂, -, hus⟩ |
    ⟨t₁, c₁, body₁, vs₁, t₂, c₂, body₂, vs₂, mark, marks', hm⟩
  · cases hnil
  · cases h₁
    cases h₂
    exact hus
  · obtain ⟨rfl, h₁, -, -, -, -, hlost⟩ := hm
    cases h₁
    exact absurd (hahead mark List.mem_cons_self) (hlost _ (List.suffix_refl _))

end Aligned

/-! ### What is seen of the items -/

theorem Same.kind_eq {i j : Item} (h : Same i j) : i.kind = j.kind :=
  h.congr fun i : Item => i.token.kind

theorem Same.lexeme_eq {i j : Item} (h : Same i j) : i.token.lexeme = j.token.lexeme :=
  h.congr fun i : Item => i.token.lexeme

theorem Same.comments {i j : Item} (h : Same i j) : Same i.comments j.comments :=
  h.congr Item.comments

theorem Same.token {i j : Item} (h : Same i j) : Same i.token j.token :=
  h.congr Item.token

theorem Same.item {cs₁ cs₂ : List Comment} (h : Same cs₁ cs₂) {t₁ t₂ : Token}
    (ht : Same t₁ t₂) :
    Same (Item.mk cs₁ t₁) ⟨cs₂, t₂⟩ := by
  show Item.mk (Spanned.withoutSpans cs₁) (Spanned.withoutSpans t₁)
    = Item.mk (Spanned.withoutSpans cs₂) (Spanned.withoutSpans t₂)
  rw [h.eq, ht.eq]

/-- A property of items that only their kind decides. -/
def ByKind (p : Item → Bool) : Prop :=
  ∀ i j : Item, i.kind = j.kind → p i = p j

theorem byKind_isMark (mark : Source.Mark) : ByKind (isMark mark) := by
  intro i j h
  rw [isMark, isMark, h]

theorem not_braceOpen_of_mark {mark : Source.Mark} {i : Item} (hi : isMark mark i)
    (hne : mark ≠ .braceOpen) : ¬isMark .braceOpen i := by
  simp only [isMark, beq_iff_eq] at hi ⊢
  rw [hi]
  exact fun h => hne (TokenKind.mark.inj h)

theorem byKind_isKeyword (word : Source.Keyword) : ByKind (isKeyword word) := by
  intro i j h
  rw [isKeyword, isKeyword, h]

theorem byKind_isKind (kind : TokenKind) : ByKind (isKind kind) := by
  intro i j h
  rw [isKind, isKind, h]

theorem byKind_of_kind (p : TokenKind → Bool) : ByKind fun i => p i.kind :=
  fun _ _ h => congrArg p h

section Looking

variable {env₁ env₂ : Env} {marks : List Nat} {ts₁ ts₂ : List Item} {p q : Item → Bool}

/-- The first items are the same, whether they start a block or not. -/
theorem Aligned.head?_cases (h : Aligned env₁ env₂ marks ts₁ ts₂) :
    (ts₁ = [] ∧ ts₂ = []) ∨ ∃ t₁ us₁ t₂ us₂, ts₁ = t₁ :: us₁ ∧
      ts₂ = t₂ :: us₂ ∧ Same t₁ t₂ := by
  rcases h.cases with ⟨-, rfl, rfl⟩ | ⟨t₁, us₁, t₂, us₂, rfl, rfl, hsame, -⟩ |
    ⟨t₁, c₁, body₁, us₁, t₂, c₂, body₂, us₂, mark, marks', hm⟩
  · exact .inl ⟨rfl, rfl⟩
  · exact .inr ⟨t₁, us₁, t₂, us₂, rfl, rfl, hsame⟩
  · exact .inr ⟨t₁, _, t₂, _, hm.items₁, hm.items₂, hm.same⟩

theorem Aligned.isEmpty_eq (h : Aligned env₁ env₂ marks ts₁ ts₂) :
    ts₁.isEmpty = ts₂.isEmpty := by
  rcases h.head?_cases with ⟨rfl, rfl⟩ | ⟨t₁, us₁, t₂, us₂, rfl, rfl, -⟩ <;> rfl

theorem Aligned.next_eq (h : Aligned env₁ env₂ marks ts₁ ts₂) (hp : ByKind p) :
    next p ts₁ = next p ts₂ := by
  rcases h.head?_cases with ⟨rfl, rfl⟩ | ⟨t₁, us₁, t₂, us₂, rfl, rfl, hsame⟩
  · rfl
  · exact hp t₁ t₂ hsame.kind_eq

/-- Behind an item that starts no block, the next one is the same too, an equals sign behind a name
included. -/
theorem Aligned.second_eq (h : Aligned env₁ env₂ marks ts₁ ts₂) (hp : ByKind p)
    (hopen : ∀ i, p i → ¬isMark .braceOpen i) (hq : ∀ i j, Same i j → q i = q j) :
    (next p ts₁ && second q ts₁) = (next p ts₂ && second q ts₂) := by
  rw [← h.next_eq hp]
  by_cases hnext : next p ts₁ = true
  · rw [hnext, Bool.true_and, Bool.true_and]
    rcases h.cases with ⟨-, rfl, rfl⟩ | ⟨t₁, us₁, t₂, us₂, rfl, rfl, -, hus⟩ |
      ⟨t₁, c₁, body₁, us₁, t₂, c₂, body₂, us₂, mark, marks', hm⟩
    · rfl
    · rcases hus.head?_cases with ⟨rfl, rfl⟩ | ⟨u₁, vs₁, u₂, vs₂, rfl, rfl, hsame⟩
      · rfl
      · exact hq u₁ u₂ hsame
    · obtain ⟨-, rfl, rfl, -, hdiffer, -, -⟩ := hm
      cases hdiffer with
      | block hopens => exact absurd hopens (hopen t₁ hnext)
      | assigned hname hequals hc => exact hq c₁ c₂ hc
  · rw [Bool.not_eq_true] at hnext
    rw [hnext, Bool.false_and, Bool.false_and]

theorem Aligned.docComment? (h : Aligned env₁ env₂ marks ts₁ ts₂) :
    Same (docComment? ts₁) (docComment? ts₂) := by
  rcases h.head?_cases with ⟨rfl, rfl⟩ | ⟨t₁, us₁, t₂, us₂, rfl, rfl, hsame⟩
  · rfl
  · exact hsame.comments.reverse.find? fun _ => rfl

theorem Aligned.firstDoc (h : Aligned env₁ env₂ marks ts₁ ts₂)
    {doc₁ doc₂ : Option Comment} (hdoc : Same doc₁ doc₂) :
    Same (firstDoc doc₁ ts₁) (firstDoc doc₂ ts₂) :=
  hdoc.or h.docComment?

end Looking

/-! ### Readings side by side -/

/-- **The second reading follows the first**: where the first succeeds, and has not entered a place
where the texts differ, the second succeeds too, gives the same but for places, and leaves off at
the same place. -/
def Follows {ε α : Type} [Spanned α] (env₁ env₂ : Env) (marks : List Nat)
    {ts₁ ts₂ : List Item} (r₁ : Reading Item ε α ts₁)
    (r₂ : Reading Item ε α ts₂) : Prop :=
  ∀ a₁, r₁.outcome = .ok a₁ → (∀ e ∈ marks, Ahead r₁.rest e) →
    ∃ a₂, r₂.outcome = .ok a₂ ∧ Same a₁ a₂ ∧
    Aligned env₁ env₂ marks r₁.rest r₂.rest

theorem behind_rest_suffix {ε α : Type} {us : List Item} (t : Item) (r : Reading Item ε α us) :
    (r.behind t).rest <:+ us :=
  r.suffix

section Rules

variable {ε α β : Type} [Spanned α] [Spanned β] {env₁ env₂ : Env} {marks : List Nat}
  {ts₁ ts₂ : List Item}

theorem follows_done (h : Aligned env₁ env₂ marks ts₁ ts₂) {a₁ a₂ : α}
    (ha : Same a₁ a₂) :
    Follows env₁ env₂ marks (.done a₁ : Reading Item ε α ts₁)
      (.done a₂ : Reading Item ε α ts₂) := by
  intro a h₁ _
  cases h₁
  exact ⟨a₂, rfl, ha, h⟩

theorem follows_fail {e₁ : ε} {r₂ : Reading Item ε α ts₂} :
    Follows env₁ env₂ marks (.fail e₁ : Reading Item ε α ts₁) r₂ :=
  fun _ h => nomatch h

/-- What follows a reading that is known. -/
theorem Follows.exists_eq {r₁ : Reading Item ε α ts₁} {r₂ : Reading Item ε α ts₂}
    (h : Follows env₁ env₂ marks r₁ r₂) {a₁ : α} {us₁ : List Item}
    {suffix₁ : us₁ <:+ ts₁} (hr₁ : r₁ = ⟨.ok a₁, us₁, suffix₁⟩)
    (hahead : ∀ e ∈ marks, Ahead us₁ e) :
    ∃ a₂ us₂ suffix₂, r₂ = ⟨.ok a₂, us₂, suffix₂⟩ ∧ Same a₁ a₂ ∧
      Aligned env₁ env₂ marks us₁ us₂ := by
  subst hr₁
  obtain ⟨a₂, ha₂, hsame, hrest⟩ := h a₁ rfl hahead
  exact ⟨a₂, r₂.rest, r₂.suffix, Reading.eq_of_outcome ha₂, hsame, hrest⟩

/-- A reading that enters a block whose content differs is followed by any other. -/
theorem follows_of_entered {r₁ : Reading Item ε α ts₁}
    {r₂ : Reading Item ε α ts₂} {e : Nat} (he : e ∈ marks) (h : ¬Ahead r₁.rest e) :
    Follows env₁ env₂ marks r₁ r₂ :=
  fun _ _ hahead => absurd (hahead e he) h

/-- In front of a block whose content differs, any step enters it. -/
theorem Marked.follows_of_advances {t₁ c₁ t₂ c₂ : Item}
    {body₁ us₁ body₂ us₂ : List Item} {mark : Nat} {marks' : List Nat}
    (hm : Marked env₁ env₂ marks ts₁ ts₂ t₁ c₁ body₁ us₁ t₂ c₂ body₂ us₂
      mark marks')
    {r₁ : Reading Item ε α ts₁} {r₂ : Reading Item ε α ts₂} (h : r₁.Advances) :
    Follows env₁ env₂ marks r₁ r₂ := by
  obtain ⟨rfl, rfl, rfl, -, -, -, hlost⟩ := hm
  intro a₁ ha₁ hahead
  have hlt := h a₁ ha₁
  rcases List.suffix_cons_iff.1 r₁.suffix with heq | hin
  · rw [heq] at hlt
    exact absurd hlt (Nat.lt_irrefl _)
  · exact absurd (hahead _ List.mem_cons_self) (hlost _ hin)

theorem follows_behind {t₁ t₂ : Item} {us₁ us₂ : List Item}
    {r₁ : Reading Item ε α us₁} {r₂ : Reading Item ε α us₂}
    (h : Follows env₁ env₂ marks r₁ r₂) :
    Follows env₁ env₂ marks (r₁.behind t₁) (r₂.behind t₂) :=
  h

/-- What is made of two readings may be the same even if they are not. -/
theorem follows_map {γ : Type} {r₁ : Reading Item ε γ ts₁} {r₂ : Reading Item ε γ ts₂}
    {f₁ f₂ : γ → α}
    (h : ∀ c₁, r₁.outcome = .ok c₁ → (∀ e ∈ marks, Ahead r₁.rest e) →
      ∃ c₂, r₂.outcome = .ok c₂ ∧ Same (f₁ c₁) (f₂ c₂) ∧
        Aligned env₁ env₂ marks r₁.rest r₂.rest) :
    Follows env₁ env₂ marks (r₁.map f₁) (r₂.map f₂) := by
  intro a₁ ha₁ hahead
  obtain ⟨c₁, hc₁, rfl⟩ := Reading.outcome_map_eq_ok_iff.1 ha₁
  rw [Reading.rest_map] at hahead
  obtain ⟨c₂, hc₂, hsame, hrest⟩ := h c₁ hc₁ hahead
  refine ⟨f₂ c₂, Reading.outcome_map_eq_ok_iff.2 ⟨c₂, hc₂, rfl⟩, hsame, ?_⟩
  rwa [Reading.rest_map, Reading.rest_map]

theorem Follows.map {r₁ : Reading Item ε α ts₁} {r₂ : Reading Item ε α ts₂}
    (h : Follows env₁ env₂ marks r₁ r₂) {f₁ f₂ : α → β}
    (hf : ∀ a₁ a₂, Same a₁ a₂ → Same (f₁ a₁) (f₂ a₂)) :
    Follows env₁ env₂ marks (r₁.map f₁) (r₂.map f₂) := by
  refine follows_map fun a₁ ha₁ hahead => ?_
  obtain ⟨a₂, ha₂, hsame, hrest⟩ := h a₁ ha₁ hahead
  exact ⟨a₂, ha₂, hf a₁ a₂ hsame, hrest⟩

theorem Follows.mapError {ε' : Type} {r₁ : Reading Item ε α ts₁}
    {r₂ : Reading Item ε α ts₂} (h : Follows env₁ env₂ marks r₁ r₂)
    {f₁ f₂ : ε → ε'} :
    Follows env₁ env₂ marks (r₁.mapError f₁) (r₂.mapError f₂) := by
  intro a₁ ha₁ hahead
  rw [Reading.rest_mapError] at hahead ⊢
  rw [Reading.rest_mapError]
  obtain ⟨a₂, ha₂, hsame, hrest⟩ :=
    h a₁ (Reading.outcome_mapError_eq_ok_iff.1 ha₁) hahead
  exact ⟨a₂, Reading.outcome_mapError_eq_ok_iff.2 ha₂, hsame, hrest⟩

/-- **Sequences follow** when each step does. -/
theorem Follows.andThen {r₁ : Reading Item ε α ts₁} {r₂ : Reading Item ε α ts₂}
    {next₁ : α → (us : List Item) → us.length ≤ ts₁.length → Reading Item ε β us}
    {next₂ : α → (us : List Item) → us.length ≤ ts₂.length → Reading Item ε β us}
    (h : Follows env₁ env₂ marks r₁ r₂)
    (hnext : ∀ a₁ us₁ le₁ a₂ us₂ le₂, Same a₁ a₂ →
      Aligned env₁ env₂ marks us₁ us₂ →
      Follows env₁ env₂ marks (next₁ a₁ us₁ le₁) (next₂ a₂ us₂ le₂)) :
    Follows env₁ env₂ marks (r₁.andThen next₁) (r₂.andThen next₂) := by
  intro b₁ hb₁ hahead
  obtain ⟨a₁, ha₁, hnext₁⟩ := Reading.outcome_andThen_eq_ok hb₁
  rw [Reading.andThen_of_ok ha₁] at hahead ⊢
  have hsuffix := (next₁ a₁ r₁.rest r₁.suffix.length_le).suffix
  obtain ⟨a₂, ha₂, hsame, hrest⟩ := h a₁ ha₁ fun e he => (hahead e he).mono hsuffix
  rw [Reading.andThen_of_ok ha₂]
  exact hnext a₁ _ _ a₂ _ _ hsame hrest b₁ hnext₁ hahead

/-- **Branches follow** when both sides do.  Taking a token that opens a block whose content differs
enters it. -/
theorem follows_onNext {p : Item → Bool} (hp : ByKind p)
    (h : Aligned env₁ env₂ marks ts₁ ts₂)
    {yes₁ : Item → (us : List Item) → us.length < ts₁.length → Reading Item ε α us}
    {yes₂ : Item → (us : List Item) → us.length < ts₂.length → Reading Item ε α us}
    {no₁ : Reading Item ε α ts₁} {no₂ : Reading Item ε α ts₂}
    (hyes : ∀ t₁ us₁ lt₁ t₂ us₂ lt₂, Same t₁ t₂ →
      Aligned env₁ env₂ marks us₁ us₂ →
      Follows env₁ env₂ marks (yes₁ t₁ us₁ lt₁) (yes₂ t₂ us₂ lt₂))
    (hno : Follows env₁ env₂ marks no₁ no₂) :
    Follows env₁ env₂ marks (Reading.onNext p ts₁ yes₁ no₁)
      (Reading.onNext p ts₂ yes₂ no₂) := by
  rcases h.cases with ⟨-, rfl, rfl⟩ | ⟨t₁, us₁, t₂, us₂, rfl, rfl, hsame, hus⟩ |
    ⟨t₁, c₁, body₁, us₁, t₂, c₂, body₂, us₂, mark, marks', hm⟩
  · exact hno
  · simp only [Reading.onNext, ← hp t₁ t₂ hsame.kind_eq]
    split
    · exact hyes t₁ us₁ _ t₂ us₂ _ hsame hus
    · exact hno
  · obtain ⟨rfl, rfl, rfl, hsame, -, -, hlost⟩ := hm
    simp only [Reading.onNext, ← hp t₁ t₂ hsame.kind_eq]
    split
    · intro a₁ _ hahead
      have hentered := (yes₁ t₁ (body₁ ++ c₁ :: us₁) (Nat.lt_succ_self _)).suffix
      exact absurd (hahead _ List.mem_cons_self) (hlost _ hentered)
    · exact hno

theorem follows_expect {p : Item → Bool} (hp : ByKind p)
    (h : Aligned env₁ env₂ marks ts₁ ts₂) {reason₁ reason₂ : List Item → ε} :
    Follows env₁ env₂ marks (Reading.expect p reason₁ ts₁)
      (Reading.expect p reason₂ ts₂) :=
  follows_onNext hp h (fun _ _ _ _ _ _ hsame hus => follows_done hus hsame) follows_fail

theorem follows_skip {p : Item → Bool} (hp : ByKind p)
    (h : Aligned env₁ env₂ marks ts₁ ts₂) :
    Follows env₁ env₂ marks (Reading.skip p ts₁ : Reading Item ε Bool ts₁)
      (Reading.skip p ts₂) :=
  follows_onNext hp h (fun _ _ _ _ _ _ _ hus => follows_done hus rfl) (follows_done h rfl)

theorem follows_take? {p : Item → Bool} (hp : ByKind p)
    (h : Aligned env₁ env₂ marks ts₁ ts₂) :
    Follows env₁ env₂ marks (Reading.take? p ts₁ : Reading Item ε (Option Item) ts₁)
      (Reading.take? p ts₂) :=
  follows_onNext hp h (fun _ _ _ _ _ _ hsame hus => follows_done hus hsame.some)
    (follows_done h rfl)

end Rules

end PhpHandbook.Declaration
