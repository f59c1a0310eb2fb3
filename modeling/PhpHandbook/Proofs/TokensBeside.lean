import PhpHandbook.Proofs.Lossless
import PhpHandbook.Proofs.Positions
import PhpHandbook.Proofs.SideBySide

/-!
# Tokens side by side

Two texts are compared token by token.  A comment is no item, but goes to the one behind it, so what
is left of two texts is compared whatever comments were collected in front of it.  The same goes for
the text in front of a token, of which a gap or a comment is a part.

## Main definitions

* `Rest`: what is left of a text.
* `Beside`: what is left of two texts gives items that stand side by side.

## Main statements

* `Beside.token`, `Beside.block`, `Beside.assigned`: what may stand in front.
* `beside_walk`: the same text, at two offsets.
* `Beside.exists_aligned`: the items of two texts.
-/

namespace PhpHandbook.Declaration

open Source (Span Token TokenKind byteLength tokenAt)

/-- Behind a token that is no comment, comments are put anew. -/
theorem exists_attachComments_append (pending : List Comment) (ts : List Token) {t : Token}
    (ht : ¬t.kind.isTrivia = true) (us : List Token) :
    ∃ body comments, attachComments pending (ts ++ t :: us)
        = body ++ ⟨comments, t⟩ :: attachComments [] us ∧
      kinds body = (ts.map (·.kind)).filter (!·.isTrivia) := by
  induction ts generalizing pending with
  | nil => exact ⟨[], pending, attachComments_cons pending ht us, rfl⟩
  | cons u ts ih =>
    rw [List.cons_append, List.map_cons, attachComments]
    split
    · next hu =>
      rw [List.filter_cons_of_neg (by simp [hu])]
      exact ih _
    · next hu =>
      obtain ⟨body, comments, hbody, hkinds⟩ := ih []
      refine ⟨_ :: body, comments, by rw [hbody, List.cons_append], ?_⟩
      rw [List.filter_cons_of_pos (by simp [hu]), ← hkinds]
      rfl

/-! ### The items of two texts -/

/-- The items of two streams of tokens that end with the end of the file stand side by side. -/
def ItemsAligned (marks : List Nat) (o₁ : Nat) (x₁ : List Char) (items₁ : List Item)
    (eof₁ : Token) (o₂ : Nat) (x₂ : List Char) (items₂ : List Item)
    (eof₂ : Token) : Prop :=
  ∃ us₁ us₂ last₁ last₂, items₁ = us₁ ++ [⟨last₁, eof₁⟩] ∧
    items₂ = us₂ ++ [⟨last₂, eof₂⟩] ∧ AlignedAt marks o₁ x₁ us₁ o₂ x₂ us₂

section ItemsAligned

variable {marks : List Nat} {o₁ o₂ : Nat} {x₁ x₂ gap lexeme : List Char}
  {items₁ items₂ : List Item} {eof₁ eof₂ : Token} {t₁ t₂ : Item}

theorem Kept.items (ht : Kept o₁ o₂ gap lexeme t₁ t₂)
    (h : ItemsAligned marks (o₁ + byteLength (gap ++ lexeme)) x₁ items₁ eof₁
      (o₂ + byteLength (gap ++ lexeme)) x₂ items₂ eof₂) :
    ItemsAligned marks o₁ (gap ++ lexeme ++ x₁) (t₁ :: items₁) eof₁
      o₂ (gap ++ lexeme ++ x₂) (t₂ :: items₂) eof₂ := by
  obtain ⟨us₁, us₂, last₁, last₂, rfl, rfl, hus⟩ := h
  exact ⟨t₁ :: us₁, t₂ :: us₂, last₁, last₂, rfl, rfl, .keep ht hus⟩

theorem Kept.differItems {old new : List Char} {body₁ body₂ : List Item} {c₁ c₂ : Item}
    {mark : Nat} (ht : Kept o₁ o₂ gap lexeme t₁ t₂)
    (hdiffer : Differ t₁ body₁ c₁ t₂ body₂ c₂ mark)
    (h : ItemsAligned marks (o₁ + byteLength (gap ++ lexeme ++ old)) x₁ items₁ eof₁
      (o₂ + byteLength (gap ++ lexeme ++ new)) x₂ items₂ eof₂) :
    ItemsAligned (mark :: marks)
      o₁ (gap ++ lexeme ++ old ++ x₁) (t₁ :: (body₁ ++ c₁ :: items₁)) eof₁
      o₂ (gap ++ lexeme ++ new ++ x₂) (t₂ :: (body₂ ++ c₂ :: items₂)) eof₂ := by
  obtain ⟨us₁, us₂, last₁, last₂, rfl, rfl, hus⟩ := h
  refine ⟨t₁ :: (body₁ ++ c₁ :: us₁), t₂ :: (body₂ ++ c₂ :: us₂), last₁,
    last₂, ?_, ?_, .differ ht hdiffer hus⟩
  · simp only [List.cons_append, List.append_assoc]
  · simp only [List.cons_append, List.append_assoc]

end ItemsAligned

theorem kept_tokenAt {pending₁ pending₂ : List Comment} (h : Same pending₁ pending₂)
    (kind : TokenKind) (gap lexeme : List Char) (o₁ o₂ : Nat) :
    Kept o₁ o₂ gap lexeme ⟨pending₁, tokenAt kind (o₁ + byteLength gap) lexeme⟩
      ⟨pending₂, tokenAt kind (o₂ + byteLength gap) lexeme⟩ :=
  ⟨h.item rfl, rfl, rfl⟩

/-- **What is left of a text**: where it starts, the text and its tokens. -/
structure Rest where
  offset : Nat
  text : List Char
  tokens : List Token

/-- **The items of what is left of two texts stand side by side**, whatever comments were collected
in front of it, and whatever text in front of it belongs to its first item. -/
def Beside (marks : List Nat) (r₁ : Rest) (eof₁ : Token) (r₂ : Rest)
    (eof₂ : Token) : Prop :=
  ∀ (g : List Char) (a₁ a₂ : Nat) (pending₁ pending₂ : List Comment),
    a₁ + byteLength g = r₁.offset → a₂ + byteLength g = r₂.offset →
    Same pending₁ pending₂ →
    ItemsAligned marks a₁ (g ++ r₁.text) (attachComments pending₁ r₁.tokens) eof₁
      a₂ (g ++ r₂.text) (attachComments pending₂ r₂.tokens) eof₂

section Beside

variable {marks : List Nat} {o₁ o₂ : Nat} {x₁ x₂ : List Char} {ts₁ ts₂ : List Token}
    {eof₁ eof₂ : Token}

/-- At the end of both texts. -/
theorem beside_eof (o₁ o₂ : Nat) (x₁ x₂ : List Char) (h₁ : eof₁.kind = .eof)
    (h₂ : eof₂.kind = .eof) :
    Beside [] ⟨o₁, x₁, [eof₁]⟩ eof₁ ⟨o₂, x₂, [eof₂]⟩ eof₂ := by
  intro g a₁ a₂ pending₁ pending₂ _ _ _
  have hsignificant {t : Token} (h : t.kind = .eof) : ¬t.kind.isTrivia = true := by
    rw [h]
    exact nofun
  exact ⟨[], [], pending₁, pending₂, attachComments_cons _ (hsignificant h₁) [],
    attachComments_cons _ (hsignificant h₂) [], .nil⟩

/-- Text in front of the first token. -/
theorem Beside.gap (gap : List Char)
    (h : Beside marks ⟨o₁ + byteLength gap, x₁, ts₁⟩ eof₁
      ⟨o₂ + byteLength gap, x₂, ts₂⟩ eof₂) :
    Beside marks ⟨o₁, gap ++ x₁, ts₁⟩ eof₁ ⟨o₂, gap ++ x₂, ts₂⟩ eof₂ := by
  rintro g a₁ a₂ pending₁ pending₂ rfl rfl hpending
  have hmore :=
    h (g ++ gap) a₁ a₂ pending₁ pending₂ (by rw [Source.byteLength_append, Nat.add_assoc])
    (by rw [Source.byteLength_append, Nat.add_assoc]) hpending
  simpa only [List.append_assoc] using hmore

/-- A token in front, which is a comment or an item. -/
theorem Beside.token (kind : TokenKind) (lexeme : List Char)
    (h : Beside marks ⟨o₁ + byteLength lexeme, x₁, ts₁⟩ eof₁
      ⟨o₂ + byteLength lexeme, x₂, ts₂⟩ eof₂) :
    Beside marks ⟨o₁, lexeme ++ x₁, tokenAt kind o₁ lexeme :: ts₁⟩ eof₁
      ⟨o₂, lexeme ++ x₂, tokenAt kind o₂ lexeme :: ts₂⟩ eof₂ := by
  rintro g a₁ a₂ pending₁ pending₂ rfl rfl hpending
  by_cases hkind : kind.isTrivia = true
  · have htrivia (o : Nat) : (tokenAt kind o lexeme).kind.isTrivia = true := hkind
    have hcomment : Same [Comment.ofToken (tokenAt kind (a₁ + byteLength g) lexeme)]
      [Comment.ofToken (tokenAt kind (a₂ + byteLength g) lexeme)] := rfl
    have hmore := h (g ++ lexeme) a₁ a₂ _ _ (by rw [Source.byteLength_append, Nat.add_assoc])
      (by rw [Source.byteLength_append, Nat.add_assoc]) (hpending.append hcomment)
    rw [attachComments_comment pending₁ (htrivia _),
      attachComments_comment pending₂ (htrivia _)]
    simpa only [List.append_assoc] using hmore
  · have hsignificant (o : Nat) : ¬(tokenAt kind o lexeme).kind.isTrivia = true := hkind
    have hmore := h [] _ _ [] [] rfl rfl (Same.refl _)
    rw [attachComments_cons pending₁ (hsignificant _),
      attachComments_cons pending₂ (hsignificant _)]
    rw [← List.append_assoc, ← List.append_assoc]
    refine (kept_tokenAt hpending kind g lexeme a₁ a₂).items ?_
    rw [Source.byteLength_append, ← Nat.add_assoc, ← Nat.add_assoc]
    exact hmore

/-- A place in front where the texts differ. -/
theorem Beside.differ {kind : TokenKind} (hkind : ¬kind.isTrivia = true)
    {lexeme old new : List Char} {inner₁ inner₂ : List Token} (c₁ c₂ : Item)
    {body₁ body₂ : List Item} {mark : Nat}
    (hitems₁ : attachComments [] (inner₁ ++ c₁.token :: ts₁)
      = body₁ ++ c₁ :: attachComments [] ts₁)
    (hitems₂ : attachComments [] (inner₂ ++ c₂.token :: ts₂)
      = body₂ ++ c₂ :: attachComments [] ts₂)
    (hdiffer : ∀ pending₁ pending₂,
      Differ ⟨pending₁, tokenAt kind o₁ lexeme⟩ body₁ c₁
      ⟨pending₂, tokenAt kind o₂ lexeme⟩ body₂ c₂ mark)
    (h : Beside marks ⟨o₁ + byteLength (lexeme ++ old), x₁, ts₁⟩ eof₁
      ⟨o₂ + byteLength (lexeme ++ new), x₂, ts₂⟩ eof₂) :
    Beside (mark :: marks)
      ⟨o₁, lexeme ++ old ++ x₁,
        tokenAt kind o₁ lexeme :: (inner₁ ++ c₁.token :: ts₁)⟩ eof₁
      ⟨o₂, lexeme ++ new ++ x₂,
        tokenAt kind o₂ lexeme :: (inner₂ ++ c₂.token :: ts₂)⟩ eof₂ := by
  rintro g a₁ a₂ pending₁ pending₂ rfl rfl hpending
  have hsignificant (o : Nat) : ¬(tokenAt kind o lexeme).kind.isTrivia = true := hkind
  have hmore := h [] _ _ [] [] rfl rfl (Same.refl _)
  rw [attachComments_cons pending₁ (hsignificant _),
    attachComments_cons pending₂ (hsignificant _), hitems₁, hitems₂, ← List.append_assoc,
    ← List.append_assoc, ← List.append_assoc, ← List.append_assoc]
  refine (kept_tokenAt hpending kind g lexeme a₁ a₂).differItems
    (hdiffer pending₁ pending₂) ?_
  rw [List.append_assoc, List.append_assoc, Source.byteLength_append g, Source.byteLength_append g,
    ← Nat.add_assoc, ← Nat.add_assoc]
  exact hmore

/-- A block in front, of which the content may differ. -/
theorem Beside.block {inner₁ inner₂ : List Token} {c₁ c₂ : Token} {old new : List Char}
    (hinner₁ : BracketsBalanced ((inner₁.map (·.kind)).filter (!·.isTrivia)))
    (hinner₂ : BracketsBalanced ((inner₂.map (·.kind)).filter (!·.isTrivia)))
    (hc₁ : c₁.kind = .mark .braceClose) (hc₂ : c₂.kind = .mark .braceClose)
    (h : Beside marks ⟨o₁ + byteLength (['\x7b'] ++ old), x₁, ts₁⟩ eof₁
      ⟨o₂ + byteLength (['\x7b'] ++ new), x₂, ts₂⟩ eof₂) :
    Beside (c₁.span.stop :: marks)
      ⟨o₁, ['\x7b'] ++ old ++ x₁,
        tokenAt (.mark .braceOpen) o₁ ['\x7b'] :: (inner₁ ++ c₁ :: ts₁)⟩ eof₁
      ⟨o₂, ['\x7b'] ++ new ++ x₂, tokenAt (.mark .braceOpen) o₂ ['\x7b'] ::
        (inner₂ ++ c₂ :: ts₂)⟩
      eof₂ := by
  have hsignificant {c : Token} (hc : c.kind = .mark .braceClose) : ¬c.kind.isTrivia = true := by
    rw [hc]
    decide
  have hclose {c : Token} (comments : List Comment) (hc : c.kind = .mark .braceClose) :
      isMark .braceClose ⟨comments, c⟩ := by
    rw [isMark, Item.kind, hc]
    rfl
  obtain ⟨body₁, comments₁, hitems₁, hkinds₁⟩ :=
    exists_attachComments_append [] inner₁ (hsignificant hc₁) ts₁
  obtain ⟨body₂, comments₂, hitems₂, hkinds₂⟩ :=
    exists_attachComments_append [] inner₂ (hsignificant hc₂) ts₂
  have hbody₁ : BracketsBalanced (kinds body₁) := hkinds₁ ▸ hinner₁
  have hbody₂ : BracketsBalanced (kinds body₂) := hkinds₂ ▸ hinner₂
  have hopen : ¬(TokenKind.mark .braceOpen).isTrivia = true := by decide
  refine h.differ hopen ⟨comments₁, c₁⟩ ⟨comments₂, c₂⟩ hitems₁ hitems₂ ?_
  exact fun _ _ =>
    .block rfl hbody₁ hbody₂ (hclose comments₁ hc₁) (hclose comments₂ hc₂)

/-- A name in front that is assigned to.  What stands behind the equals sign may differ. -/
theorem Beside.assigned {kind : TokenKind}
    (hname : kind = .name ∨ kind.isKeyword = true ∨ kind = .variableName)
    {lexeme old new : List Char} {inner : List Token}
    (hinner : ∀ t ∈ inner, t.kind.isTrivia = true) {c : Token} (hc : c.kind = .mark .equals)
    (h : Beside marks ⟨o₁ + byteLength (lexeme ++ old), x₁, ts₁⟩ eof₁
      ⟨o₂ + byteLength (lexeme ++ new), x₂, ts₂⟩ eof₂) :
    Beside ((o₁ + byteLength lexeme) :: marks)
      ⟨o₁, lexeme ++ old ++ x₁, tokenAt kind o₁ lexeme :: (inner ++ c :: ts₁)⟩ eof₁
      ⟨o₂, lexeme ++ new ++ x₂, tokenAt kind o₂ lexeme :: (inner ++ c :: ts₂)⟩
        eof₂ := by
  have hkind : ¬kind.isTrivia = true := by
    rcases hname with rfl | hkeyword | rfl
    · decide
    · cases kind <;> simp_all [TokenKind.isTrivia, TokenKind.isKeyword]
    · decide
  have hnaming (pending : List Comment) :
      isNaming ⟨pending, tokenAt kind o₁ lexeme⟩ = true := by
    simp only [isNaming, Item.kind, tokenAt, Bool.or_eq_true, beq_iff_eq]
    rcases hname with h | h | h
    · exact .inl (.inl h)
    · exact .inl (.inr h)
    · exact .inr h
  have hsignificant : ¬c.kind.isTrivia = true := by
    rw [hc]
    decide
  have hequals : isMark .equals ⟨inner.map Comment.ofToken, c⟩ := by
    rw [isMark, Item.kind, hc]
    rfl
  have hitems (ts : List Token) : attachComments [] (inner ++ c :: ts)
      = [] ++ ⟨inner.map Comment.ofToken, c⟩ :: attachComments [] ts := by
    rw [attachComments_append [] hinner, attachComments_cons _ hsignificant]
    rfl
  exact h.differ hkind ⟨_, c⟩ ⟨_, c⟩ (hitems ts₁) (hitems ts₂)
    fun _ _ => .assigned (hnaming _) hequals (Same.refl _)

/-- **The same text at two offsets** stands side by side. -/
theorem beside_walk (mode : Source.Mode) (o₁ o₂ : Nat) (x : List Char) :
    Beside [] ⟨o₁, x, (Source.walk mode o₁ x).map (·.1)⟩
      (tokenAt .eof (o₁ + byteLength x) [])
      ⟨o₂, x, (Source.walk mode o₂ x).map (·.1)⟩
        (tokenAt .eof (o₂ + byteLength x) []) := by
  induction mode, o₁, x using Source.walk.induct generalizing o₂ with
  | case1 mode o₁ =>
    rw [Source.walk, Source.walk]
    exact beside_eof o₁ o₂ [] [] rfl rfl
  | case2 mode o₁ c cs hgap ih =>
    have hstop (o : Nat) : o + byteLength (c :: cs) = o + c.utf8Size + byteLength cs := by
      rw [byteLength, Nat.add_assoc]
    rw [Source.walk, if_pos hgap, Source.walk, if_pos hgap, hstop, hstop]
    exact (ih (o₂ + c.utf8Size)).gap [c]
  | case3 mode o₁ c cs hgap p lexeme stop skipped ih =>
    have htext : c :: cs = lexeme ++ (skipped ++ cs.drop (p.tail + p.skipped)) := by
      rw [← List.append_assoc]
      exact congrArg (c :: ·) (Source.take_append_drop_append_drop cs p.tail p.skipped).symm
    have hstop (o : Nat) : o + byteLength (c :: cs) = o + byteLength lexeme + byteLength skipped
        + byteLength (cs.drop (p.tail + p.skipped)) := by
      rw [htext, Source.byteLength_append, Source.byteLength_append, Nat.add_assoc, Nat.add_assoc]
    have hmore :=
      ((ih (o₂ + byteLength lexeme + byteLength skipped)).gap skipped).token p.kind lexeme
    rw [← htext, ← hstop, ← hstop] at hmore
    rw [Source.walk, if_neg hgap, Source.walk, if_neg hgap]
    exact hmore

/-- Tokens that both texts begin with. -/
theorem exists_beside_append {mode : Source.Mode} {o : Nat} {text : List Char}
    {items items' : List (Token × Option Source.LexFault)}
    (h : Source.walk mode o text = items ++ items') (hne : items' ≠ []) :
    ∃ passed rest mode', text = passed ++ rest ∧
      items' = Source.walk mode' (o + byteLength passed) rest ∧
      ∀ (marks : List Nat) (x₁ x₂ : List Char) (ts₁ ts₂ : List Token)
    (eof₁ eof₂ : Token),
        Beside marks ⟨o + byteLength passed, x₁, ts₁⟩ eof₁
          ⟨o + byteLength passed, x₂, ts₂⟩ eof₂ →
        Beside marks ⟨o, passed ++ x₁, items.map (·.1) ++ ts₁⟩ eof₁
          ⟨o, passed ++ x₂, items.map (·.1) ++ ts₂⟩ eof₂ := by
  induction items generalizing mode o text with
  | nil => exact ⟨[], text, mode, rfl, h.symm, fun _ _ _ _ _ _ _ hmore => hmore⟩
  | cons item items ih =>
    obtain ⟨gap, rest, rfl, -, -, hitem⟩ := Source.walk_eq_cons h
    rcases hitem with ⟨-, -, hnil⟩ |
      ⟨kind, lexeme, skipped, more, fault, mode', -, rfl, rfl, hmore⟩
    · exact absurd (List.append_eq_nil_iff.1 hnil).2 hne
    · obtain ⟨passed, rest, mode'', rfl, hrest, hbeside⟩ := ih hmore.symm
      refine ⟨gap ++ lexeme ++ skipped ++ passed, rest, mode'',
        by simp only [List.append_assoc], ?_, ?_⟩
      · rw [hrest, Nat.add_assoc, ← Source.byteLength_append]
      · intro marks x₁ x₂ ts₁ ts₂ eof₁ eof₂ h
        have hstop : o + byteLength gap + byteLength lexeme + byteLength skipped
            = o + byteLength (gap ++ lexeme ++ skipped) := by
          rw [Source.byteLength_append, Source.byteLength_append, Nat.add_assoc, Nat.add_assoc,
            Nat.add_assoc]
        rw [Source.byteLength_append (gap ++ lexeme ++ skipped), ← Nat.add_assoc, ← hstop] at h
        rw [← hstop] at hbeside
        have hmore :=
          (((hbeside marks x₁ x₂ ts₁ ts₂ eof₁ eof₂ h).gap skipped).token
            kind lexeme).gap gap
        simpa only [List.append_assoc, List.map_cons, List.cons_append] using hmore

end Beside

/-! ### The items of two texts -/

/-- The tokens of the items, in their order. -/
theorem attachComments_sublist (pending : List Comment) (ts : List Token) :
    List.Sublist ((attachComments pending ts).map (·.token)) ts := by
  induction ts generalizing pending with
  | nil => exact List.Sublist.refl _
  | cons t ts ih =>
    rw [attachComments]
    split
    · exact (ih _).cons t
    · exact (ih []).cons_cons t

/-- Tokens of a text stand one behind the other. -/
theorem tokens_pairwise {text : List Char} (before after : List Token)
    (h : (Source.tokenize text).tokens = before ++ after) :
    after.Pairwise fun t u => t.span.stop ≤ u.span.start := by
  induction after generalizing before with
  | nil => exact .nil
  | cons t after ih =>
    refine .cons (fun u hu => Source.tokens_ordered h hu) (ih (before ++ [t]) ?_)
    rw [h, List.append_assoc, List.singleton_append]

/-- **The items of a text stop one behind the other.** -/
theorem ordered_of_tokenize {text : List Char} {us : List Item} {last : Item}
    (h : attachComments [] (Source.tokenize text).tokens = us ++ [last]) : Ordered us := by
  obtain ⟨before, htokens, hbefore⟩ := Source.tokens_eof text
  have hsublist := attachComments_sublist [] (Source.tokenize text).tokens
  rw [h, htokens, List.map_append, List.map_singleton] at hsublist
  have hus : List.Sublist (us.map (·.token)) before := by
    have htail := hsublist.reverse.tail
    rw [List.reverse_append, List.reverse_append] at htail
    exact List.reverse_sublist.1 htail
  have hpairwise := ((tokens_pairwise [] _ rfl).sublist
    (htokens ▸ List.sublist_append_left before _)).sublist hus
  have hstops : (us.map (·.token)).Pairwise fun t u => t.span.stop < u.span.stop := by
    refine hpairwise.imp_of_mem fun {t u} _ hu hle => ?_
    have hmem : u ∈ (Source.tokenize text).tokens := by
      rw [htokens]
      exact List.mem_append_left _ (hus.subset hu)
    have hlt := Source.tokens_nonempty hmem (hbefore u (hus.subset hu))
    omega
  rw [List.pairwise_map] at hstops
  exact hstops

/-- **The items of two texts stand side by side** if their tokens do. -/
theorem Beside.exists_aligned {text₁ text₂ : List Char} {eof₁ eof₂ : Token}
    {marks : List Nat} (h : Beside marks ⟨0, text₁, (Source.tokenize text₁).tokens⟩ eof₁
      ⟨0, text₂, (Source.tokenize text₂).tokens⟩ eof₂) :
    ∃ us₁ us₂ last₁ last₂,
      attachComments [] (Source.tokenize text₁).tokens = us₁ ++ [⟨last₁, eof₁⟩] ∧
      attachComments [] (Source.tokenize text₂).tokens = us₂ ++ [⟨last₂, eof₂⟩] ∧
      Aligned ⟨text₁, eof₁⟩ ⟨text₂, eof₂⟩ marks us₁ us₂ := by
  obtain ⟨us₁, us₂, last₁, last₂, hitems₁, hitems₂, hat⟩ :=
    h [] 0 0 [] [] rfl rfl (Same.refl _)
  exact ⟨us₁, us₂, last₁, last₂, hitems₁, hitems₂, ⟨[], _, [], _, rfl, rfl, hat⟩,
    ordered_of_tokenize hitems₁⟩

end PhpHandbook.Declaration
