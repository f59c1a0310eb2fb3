import PhpHandbook.Proofs.SideBySide

/-!
# Tokens, expressions and types side by side

Each reader that takes tokens, passes over something or reads a type is followed by itself on the
items of the other text.  A reader that looks further than one token ahead does so behind a token
that starts no block, so it sees the same.  Expressions are kept as source text, so for these the
texts have to be the same from the first token to the last, with all that stands between them.

## Main statements

* `skipAttribute_follows`, `skipBlock_follows`: passing over brackets.
* `readExpression_follows`: the source text of an expression.
* `readHint_follows`: native types.
-/

namespace PhpHandbook.Declaration

open Source (Span TokenKind byteLength)

variable {env₁ env₂ : Env} {marks : List Nat}

/-! ### Single tokens -/

theorem expectMark_follows {ts₁ ts₂ : List Item} (h : Aligned env₁ env₂ marks ts₁ ts₂)
    (mark : Source.Mark) :
    Follows env₁ env₂ marks (expectMark env₁ mark ts₁) (expectMark env₂ mark ts₂) :=
  (follows_expect (byKind_isMark mark) h).map fun _ _ hi => hi.token

theorem expectKeyword_follows {ts₁ ts₂ : List Item}
    (h : Aligned env₁ env₂ marks ts₁ ts₂) (word : Source.Keyword) :
    Follows env₁ env₂ marks (expectKeyword env₁ word ts₁)
      (expectKeyword env₂ word ts₂) :=
  (follows_expect (byKind_isKeyword word) h).map fun _ _ hi => hi.token

theorem skipMark_follows {ts₁ ts₂ : List Item} (h : Aligned env₁ env₂ marks ts₁ ts₂)
    (mark : Source.Mark) :
    Follows env₁ env₂ marks (skipMark mark ts₁) (skipMark mark ts₂) :=
  follows_skip (byKind_isMark mark) h

theorem readName_follows {ts₁ ts₂ : List Item} (h : Aligned env₁ env₂ marks ts₁ ts₂) :
    Follows env₁ env₂ marks (readName env₁ ts₁) (readName env₂ ts₂) := by
  refine (follows_expect (byKind_of_kind TokenKind.isName) h).map fun i j hi => ?_
  rw [hi.lexeme_eq]
  exact Same.ofText _ _ _

theorem readIdent_follows {ts₁ ts₂ : List Item} (h : Aligned env₁ env₂ marks ts₁ ts₂) :
    Follows env₁ env₂ marks (readIdent env₁ ts₁) (readIdent env₂ ts₂) := by
  refine (follows_expect (byKind_isKind .name) h).map fun i j hi => ?_
  rw [hi.lexeme_eq]
  exact Same.ident _ _ _

theorem readMemberName_follows {ts₁ ts₂ : List Item}
    (h : Aligned env₁ env₂ marks ts₁ ts₂) :
    Follows env₁ env₂ marks (readMemberName env₁ ts₁) (readMemberName env₂ ts₂) := by
  refine (follows_expect (byKind_of_kind fun k => k == .name || k.isKeyword) h).map fun i j hi => ?_
  rw [hi.lexeme_eq]
  exact Same.ident _ _ _

theorem readVariable_follows {ts₁ ts₂ : List Item}
    (h : Aligned env₁ env₂ marks ts₁ ts₂) :
    Follows env₁ env₂ marks (readVariable env₁ ts₁) (readVariable env₂ ts₂) := by
  refine (follows_expect (byKind_isKind .variableName) h).map fun i j hi => ?_
  rw [hi.lexeme_eq]
  exact Same.ident _ _ _

theorem readMoreNames_follows {ts₁ ts₂ : List Item}
    (h : Aligned env₁ env₂ marks ts₁ ts₂) :
    Follows env₁ env₂ marks (readMoreNames env₁ ts₁) (readMoreNames env₂ ts₂) := by
  rw [readMoreNames, readMoreNames]
  refine follows_onNext (byKind_isMark .comma) h (fun _ us₁ lt₁ _ us₂ _ _ hus => ?_)
    (follows_done h rfl)
  refine (readName_follows hus).andThen fun n₁ vs₁ le₁ n₂ vs₂ _ hn hvs => ?_
  exact (readMoreNames_follows hvs).map fun _ _ hns => hn.cons hns
termination_by ts₁.length
decreasing_by omega

theorem readNames_follows {ts₁ ts₂ : List Item} (h : Aligned env₁ env₂ marks ts₁ ts₂) :
    Follows env₁ env₂ marks (readNames env₁ ts₁) (readNames env₂ ts₂) :=
  (readName_follows h).andThen fun _ _ _ _ _ _ hn hus =>
    (readMoreNames_follows hus).map fun _ _ hns => hn.cons hns

/-! ### Passing over -/

theorem skipToClose_advances (opening : Span) (depth : Nat) (ts : List Item) :
    (skipToClose opening depth ts).Advances := by
  cases ts with
  | nil => exact Reading.advances_fail _
  | cons t us => exact Reading.advances_behind t _

theorem skipAttribute_advances (opening : Span) (depth : Nat) (ts : List Item) :
    (skipAttribute opening depth ts).Advances := by
  cases ts with
  | nil => exact Reading.advances_fail _
  | cons t us => exact Reading.advances_behind t _

theorem skipToClose_follows {ts₁ ts₂ : List Item} (h : Aligned env₁ env₂ marks ts₁ ts₂)
    (opening₁ opening₂ : Span) (depth : Nat) :
    Follows env₁ env₂ marks (skipToClose opening₁ depth ts₁)
      (skipToClose opening₂ depth ts₂) := by
  rcases h.cases with ⟨-, rfl, rfl⟩ | ⟨t₁, us₁, t₂, us₂, rfl, rfl, hsame, hus⟩ |
    ⟨t₁, c₁, body₁, us₁, t₂, c₂, body₂, us₂, mark, marks', hm⟩
  · exact follows_fail
  · have hopen_iff := byKind_isMark .braceOpen t₁ t₂ hsame.kind_eq
    have hclose_iff := byKind_isMark .braceClose t₁ t₂ hsame.kind_eq
    by_cases hopen : isMark .braceOpen t₁ = true
    · rw [skipToClose_of_open _ _ hopen, skipToClose_of_open _ _ (hopen_iff ▸ hopen)]
      exact follows_behind (skipToClose_follows hus opening₁ opening₂ (depth + 1))
    · by_cases hclose : isMark .braceClose t₁ = true
      · cases depth with
        | zero =>
          rw [skipToClose_zero_of_close _ hopen hclose,
            skipToClose_zero_of_close _ (hopen_iff ▸ hopen) (hclose_iff ▸ hclose)]
          exact follows_behind (follows_done hus rfl)
        | succ depth =>
          rw [skipToClose_succ_of_close _ _ hopen hclose,
            skipToClose_succ_of_close _ _ (hopen_iff ▸ hopen) (hclose_iff ▸ hclose)]
          exact follows_behind (skipToClose_follows hus opening₁ opening₂ depth)
      · rw [skipToClose_of_other _ _ hopen hclose,
          skipToClose_of_other _ _ (hopen_iff ▸ hopen) (hclose_iff ▸ hclose)]
        exact follows_behind (skipToClose_follows hus opening₁ opening₂ depth)
  · exact hm.follows_of_advances (skipToClose_advances _ _ _)
termination_by ts₁.length
decreasing_by all_goals subst_vars; rw [List.length_cons]; omega

theorem skipBlock_follows {ts₁ ts₂ : List Item} (h : Aligned env₁ env₂ marks ts₁ ts₂) :
    Follows env₁ env₂ marks (skipBlock env₁ ts₁) (skipBlock env₂ ts₂) :=
  (expectMark_follows h .braceOpen).andThen fun opening₁ _ _ opening₂ _ _ _ hus =>
    skipToClose_follows hus opening₁.span opening₂.span 0

theorem skipAttribute_follows {ts₁ ts₂ : List Item}
    (h : Aligned env₁ env₂ marks ts₁ ts₂) (opening₁ opening₂ : Span) (depth : Nat) :
    Follows env₁ env₂ marks (skipAttribute opening₁ depth ts₁)
      (skipAttribute opening₂ depth ts₂) := by
  rcases h.cases with ⟨-, rfl, rfl⟩ | ⟨t₁, us₁, t₂, us₂, rfl, rfl, hsame, hus⟩ |
    ⟨t₁, c₁, body₁, us₁, t₂, c₂, body₂, us₂, mark, marks', hm⟩
  · exact follows_fail
  · have hopen_iff : (isMark .attributeOpen t₁ || isMark .bracketOpen t₁)
        = (isMark .attributeOpen t₂ || isMark .bracketOpen t₂) :=
      byKind_of_kind opensSquare t₁ t₂ hsame.kind_eq
    have hclose_iff := byKind_isMark .bracketClose t₁ t₂ hsame.kind_eq
    by_cases hopen : (isMark .attributeOpen t₁ || isMark .bracketOpen t₁) = true
    · rw [skipAttribute_of_open _ _ hopen, skipAttribute_of_open _ _ (hopen_iff ▸ hopen)]
      exact follows_behind (skipAttribute_follows hus opening₁ opening₂ (depth + 1))
    · by_cases hclose : isMark .bracketClose t₁ = true
      · cases depth with
        | zero =>
          rw [skipAttribute_zero_of_close _ hopen hclose,
            skipAttribute_zero_of_close _ (hopen_iff ▸ hopen) (hclose_iff ▸ hclose)]
          exact follows_behind (follows_done hus rfl)
        | succ depth =>
          rw [skipAttribute_succ_of_close _ _ hopen hclose,
            skipAttribute_succ_of_close _ _ (hopen_iff ▸ hopen) (hclose_iff ▸ hclose)]
          exact follows_behind (skipAttribute_follows hus opening₁ opening₂ depth)
      · rw [skipAttribute_of_other _ _ hopen hclose,
          skipAttribute_of_other _ _ (hopen_iff ▸ hopen) (hclose_iff ▸ hclose)]
        exact follows_behind (skipAttribute_follows hus opening₁ opening₂ depth)
  · exact hm.follows_of_advances (skipAttribute_advances _ _ _)
termination_by ts₁.length
decreasing_by all_goals subst_vars; rw [List.length_cons]; omega

theorem skipAttributes_follows {ts₁ ts₂ : List Item}
    (h : Aligned env₁ env₂ marks ts₁ ts₂) :
    Follows env₁ env₂ marks (skipAttributes ts₁) (skipAttributes ts₂) := by
  rw [skipAttributes, skipAttributes]
  refine follows_onNext (byKind_isMark .attributeOpen) h
    (fun t₁ us₁ lt₁ t₂ us₂ _ _ hus => ?_)
    (follows_done h rfl)
  refine (skipAttribute_follows hus _ _ 0).andThen fun _ vs₁ le₁ _ vs₂ _ _ hvs => ?_
  exact skipAttributes_follows hvs
termination_by ts₁.length
decreasing_by omega

/-! ### Expressions -/

/-- The same text lies in front of two offsets, from `b₁` and `b₂` on. -/
def CutAlike (env₁ env₂ : Env) (b₁ b₂ : List Char) (stop₁ stop₂ : Nat) : Prop :=
  ∃ cut, b₁ ++ cut <+: env₁.source ∧ b₂ ++ cut <+: env₂.source ∧
    stop₁ = byteLength b₁ + byteLength cut ∧ stop₂ = byteLength b₂ + byteLength cut

theorem CutAlike.slice_eq {b₁ b₂ : List Char} {stop₁ stop₂ : Nat}
    (h : CutAlike env₁ env₂ b₁ b₂ stop₁ stop₂) :
    Span.slice ⟨byteLength b₁, stop₁⟩ env₁.source
      = Span.slice ⟨byteLength b₂, stop₂⟩ env₂.source := by
  obtain ⟨cut, ⟨after₁, h₁⟩, ⟨after₂, h₂⟩, rfl, rfl⟩ := h
  rw [Span.slice, Span.slice, ← h₁, ← h₂, Span.chars_append, Span.chars_append]

theorem slice_self (o : Nat) (text : List Char) : Span.slice ⟨o, o⟩ text = "" := by
  have htake (cs : List Char) : Source.takeBytes? 0 cs = some [] := by
    cases cs <;> rfl
  rw [Span.slice, Span.chars, if_pos (Nat.le_refl o), Nat.sub_self]
  cases Source.dropBytes? o text with
  | none => rfl
  | some cs =>
    simp only [Option.bind_eq_bind, Option.bind_some, htake]
    rfl

theorem byKind_opensBracket : ByKind opensBracket := by
  intro i j h
  simp only [opensBracket, isMark, h]

theorem byKind_closesBracket : ByKind closesBracket := by
  intro i j h
  simp only [closesBracket, isMark, h]

theorem skipExpression_stop {stops : Item → Bool} {stop : Nat} {t : Item} {us : List Item}
    (h : stops t ∨ closesBracket t) : skipExpression stops 0 stop (t :: us) = .done stop := by
  rw [skipExpression, if_pos ⟨rfl, h⟩]

theorem skipExpression_go {stops : Item → Bool} {depth stop : Nat} {t : Item} {us : List Item}
    (h : ¬(depth = 0 ∧ (stops t ∨ closesBracket t))) :
    skipExpression stops depth stop (t :: us) = .behind t (skipExpression stops
      (if opensBracket t then depth + 1 else if closesBracket t then depth - 1 else depth)
      t.token.span.stop us) := by
  rw [skipExpression, if_neg h]

/-- **Expressions end alike**: up to the end of an expression, both texts are the same. -/
theorem skipExpression_cut {stops : Item → Bool} (hstops : ByKind stops) {ts₁ ts₂ : List Item}
    {b₁ b₂ done x₁ x₂ : List Char} (h₁ : env₁.source = b₁ ++ done ++ x₁)
    (h₂ : env₂.source = b₂ ++ done ++ x₂)
    (hat : AlignedAt marks (byteLength (b₁ ++ done)) x₁ ts₁
    (byteLength (b₂ ++ done)) x₂ ts₂)
    (hordered : Ordered ts₁) (depth : Nat) {stop₁ stop₂ : Nat}
    (hcut : CutAlike env₁ env₂ b₁ b₂ stop₁ stop₂) :
    ∀ a₁, (skipExpression stops depth stop₁ ts₁).outcome = .ok a₁ →
      (∀ e ∈ marks, Ahead (skipExpression stops depth stop₁ ts₁).rest e) →
      ∃ a₂, (skipExpression stops depth stop₂ ts₂).outcome = .ok a₂ ∧
        CutAlike env₁ env₂ b₁ b₂ a₁ a₂ ∧
        Aligned env₁ env₂ marks (skipExpression stops depth stop₁ ts₁).rest
          (skipExpression stops depth stop₂ ts₂).rest := by
  have haligned : Aligned env₁ env₂ marks ts₁ ts₂ :=
    ⟨⟨_, _, _, _, h₁, h₂, hat⟩, hordered⟩
  intro a₁ ha₁ hahead
  cases hat with
  | nil =>
    cases ha₁
    exact ⟨stop₂, rfl, hcut, haligned⟩
  | @keep _ _ _ gap lexeme y₁ y₂ t₁ t₂ us₁ us₂ ht hus =>
    have hkind := ht.same.kind_eq
    have hstop_iff : (depth = 0 ∧ (stops t₁ ∨ closesBracket t₁)) ↔
        (depth = 0 ∧ (stops t₂ ∨ closesBracket t₂)) := by
      rw [hstops t₁ t₂ hkind, byKind_closesBracket t₁ t₂ hkind]
    by_cases hstop : depth = 0 ∧ (stops t₁ ∨ closesBracket t₁)
    · obtain ⟨rfl, hs₁⟩ := hstop
      have hs₂ := (hstop_iff.1 ⟨rfl, hs₁⟩).2
      rw [skipExpression_stop hs₁] at ha₁ hahead ⊢
      rw [skipExpression_stop hs₂]
      cases ha₁
      exact ⟨stop₂, rfl, hcut, haligned⟩
    · rw [skipExpression_go hstop] at ha₁ hahead ⊢
      rw [skipExpression_go (mt hstop_iff.2 hstop), ← byKind_opensBracket t₁ t₂ hkind,
        ← byKind_closesBracket t₁ t₂ hkind]
      have hdone₁ : env₁.source = b₁ ++ (done ++ (gap ++ lexeme)) ++ y₁ := by
        rw [h₁]
        simp only [List.append_assoc]
      have hdone₂ : env₂.source = b₂ ++ (done ++ (gap ++ lexeme)) ++ y₂ := by
        rw [h₂]
        simp only [List.append_assoc]
      have hcut' : CutAlike env₁ env₂ b₁ b₂ t₁.token.span.stop t₂.token.span.stop := by
        refine ⟨done ++ (gap ++ lexeme), ⟨y₁, hdone₁.symm⟩,
          ⟨y₂, hdone₂.symm⟩, ?_, ?_⟩
        · rw [ht.span₁]
          simp only [Source.byteLength_append]
          omega
        · rw [ht.span₂]
          simp only [Source.byteLength_append]
          omega
      rw [← Source.byteLength_append, ← Source.byteLength_append, List.append_assoc,
        List.append_assoc] at hus
      exact skipExpression_cut hstops hdone₁ hdone₂ hus
        (hordered.suffix (List.suffix_cons _ _)) _ hcut'
        a₁ ha₁ hahead
  | @differ marks' _ _ mark gap lexeme old new y₁ y₂ t₁ t₂ c₁ c₂ body₁ body₂
      us₁ us₂ ht hdiffer =>
    by_cases hstop : depth = 0 ∧ (stops t₁ ∨ closesBracket t₁)
    · obtain ⟨rfl, hs₁⟩ := hstop
      have hs₂ : stops t₂ ∨ closesBracket t₂ := by
        rwa [← hstops t₁ t₂ ht.same.kind_eq,
          ← byKind_closesBracket t₁ t₂ ht.same.kind_eq]
      rw [skipExpression_stop hs₁] at ha₁ hahead ⊢
      rw [skipExpression_stop hs₂]
      cases ha₁
      exact ⟨stop₂, rfl, hcut, haligned⟩
    · rw [skipExpression_go hstop] at hahead
      exact absurd (hahead mark List.mem_cons_self)
        (hdiffer.lost hordered (behind_rest_suffix t₁ _))
termination_by ts₁.length
decreasing_by all_goals subst_vars; rw [List.length_cons]; omega

/-- Items side by side, from the start of the first one on. -/
theorem AlignedAt.trim {o₁ o₂ : Nat} {gap lexeme x₁ x₂ : List Char} {t₁ t₂ : Item}
    {us₁ us₂ : List Item} (ht : Kept o₁ o₂ gap lexeme t₁ t₂)
    (hus : AlignedAt marks (o₁ + byteLength (gap ++ lexeme)) x₁ us₁
      (o₂ + byteLength (gap ++ lexeme)) x₂ us₂) :
    AlignedAt marks (o₁ + byteLength gap) (lexeme ++ x₁) (t₁ :: us₁)
      (o₂ + byteLength gap) (lexeme ++ x₂) (t₂ :: us₂) := by
  refine @AlignedAt.keep marks _ _ [] lexeme _ _ _ _ _ _ ⟨ht.same, ht.span₁, ht.span₂⟩ ?_
  rwa [Source.byteLength_append, ← Nat.add_assoc, ← Nat.add_assoc] at hus

theorem readExpression_follows {stops : Item → Bool} (hstops : ByKind stops)
    {ts₁ ts₂ : List Item} (h : Aligned env₁ env₂ marks ts₁ ts₂) :
    Follows env₁ env₂ marks (readExpression env₁ stops ts₁)
      (readExpression env₂ stops ts₂) := by
  have haligned := h
  obtain ⟨⟨before₁, x₁, before₂, x₂, h₁, h₂, hat⟩, hordered⟩ := h
  refine follows_map fun a₁ ha₁ hahead => ?_
  have hempty (o₁ o₂ : Nat) : Same (Text.trim (Span.slice ⟨o₁, o₁⟩ env₁.source))
      (Text.trim (Span.slice ⟨o₂, o₂⟩ env₂.source)) := by
    rw [slice_self, slice_self]
    rfl
  cases hat with
  | nil =>
    cases ha₁
    exact ⟨_, rfl, hempty _ _, haligned⟩
  | @keep _ _ _ gap lexeme y₁ y₂ t₁ t₂ us₁ us₂ ht hus =>
    have hstart₁ :
        (env₁.current (t₁ :: us₁)).span.start = byteLength (before₁ ++ gap) := by
      rw [Source.byteLength_append]
      exact congrArg Span.start ht.span₁
    have hstart₂ :
        (env₂.current (t₂ :: us₂)).span.start = byteLength (before₂ ++ gap) := by
      rw [Source.byteLength_append]
      exact congrArg Span.start ht.span₂
    have hs₁ : env₁.source = before₁ ++ gap ++ [] ++ (lexeme ++ y₁) := by
      simp only [h₁, List.append_assoc, List.append_nil]
    have hs₂ : env₂.source = before₂ ++ gap ++ [] ++ (lexeme ++ y₂) := by
      simp only [h₂, List.append_assoc, List.append_nil]
    have htrim := AlignedAt.trim ht hus
    rw [← Source.byteLength_append, ← Source.byteLength_append,
      ← List.append_nil (before₁ ++ gap), ← List.append_nil (before₂ ++ gap)] at htrim
    have hcut :
        CutAlike env₁ env₂ (before₁ ++ gap) (before₂ ++ gap) (byteLength (before₁ ++ gap))
        (byteLength (before₂ ++ gap)) :=
      ⟨[], ⟨_, hs₁.symm⟩, ⟨_, hs₂.symm⟩, rfl, rfl⟩
    rw [hstart₁] at ha₁ hahead ⊢
    rw [hstart₂]
    obtain ⟨a₂, ha₂, hcut, hrest⟩ :=
      skipExpression_cut hstops hs₁ hs₂ htrim hordered 0 hcut a₁ ha₁ hahead
    exact ⟨a₂, ha₂, congrArg Text.trim hcut.slice_eq, hrest⟩
  | @differ marks' _ _ mark gap lexeme old new y₁ y₂ t₁ t₂ c₁ c₂ body₁ body₂
      us₁ us₂ ht hdiffer =>
    by_cases hstop : stops t₁ ∨ closesBracket t₁
    · have hs₂ : stops t₂ ∨ closesBracket t₂ := by
        rwa [← hstops t₁ t₂ ht.same.kind_eq,
          ← byKind_closesBracket t₁ t₂ ht.same.kind_eq]
      rw [skipExpression_stop hstop] at ha₁ hahead ⊢
      rw [skipExpression_stop hs₂]
      cases ha₁
      exact ⟨_, rfl, hempty _ _, haligned⟩
    · have hgo : ¬(0 = 0 ∧ (stops t₁ ∨ closesBracket t₁)) := fun h => hstop h.2
      rw [skipExpression_go hgo] at hahead
      exact absurd (hahead mark List.mem_cons_self)
        (hdiffer.lost hordered (behind_rest_suffix t₁ _))

theorem readDefault_follows {stops : Item → Bool} (hstops : ByKind stops)
    {ts₁ ts₂ : List Item} (h : Aligned env₁ env₂ marks ts₁ ts₂) :
    Follows env₁ env₂ marks (readDefault env₁ stops ts₁) (readDefault env₂ stops ts₂) :=
  follows_onNext (byKind_isMark .equals) h
    (fun _ _ _ _ _ _ _ hus => (readExpression_follows hstops hus).map fun _ _ ha => ha.some)
    (follows_done h rfl)

/-! ### Native types -/

theorem byKind_isTypeName : ByKind isTypeName :=
  byKind_of_kind fun k => k.isName || k == .keyword .kwStatic

theorem readSingleHint_follows {ts₁ ts₂ : List Item}
    (h : Aligned env₁ env₂ marks ts₁ ts₂) :
    Follows env₁ env₂ marks (readSingleHint env₁ ts₁) (readSingleHint env₂ ts₂) := by
  refine (follows_expect byKind_isTypeName h).map fun i j hi => ?_
  rw [hi.lexeme_eq]
  exact congrArg (TypeHint.named · ⟨0, 0⟩) (Same.ofText _ _ _)

theorem Aligned.joinsHints_eq {ts₁ ts₂ : List Item}
    (h : Aligned env₁ env₂ marks ts₁ ts₂) :
    joinsHints ts₁ = joinsHints ts₂ :=
  h.second_eq (byKind_isMark .ampersand) (fun _ hi => not_braceOpen_of_mark hi nofun)
    fun i j hij => byKind_isTypeName i j hij.kind_eq

theorem readMoreJoined_follows {ts₁ ts₂ : List Item}
    (h : Aligned env₁ env₂ marks ts₁ ts₂) :
    Follows env₁ env₂ marks (readMoreJoined env₁ ts₁) (readMoreJoined env₂ ts₂) := by
  rw [readMoreJoined, readMoreJoined, ← h.joinsHints_eq]
  split
  · refine follows_onNext (byKind_isMark .ampersand) h (fun _ us₁ lt₁ _ us₂ _ _ hus => ?_)
      (follows_done h rfl)
    refine (readSingleHint_follows hus).andThen fun t₁ vs₁ le₁ t₂ vs₂ _ ht hvs => ?_
    exact (readMoreJoined_follows hvs).map fun _ _ hts => ht.cons hts
  · exact follows_done h rfl
termination_by ts₁.length
decreasing_by omega

theorem readIntersection_follows {ts₁ ts₂ : List Item}
    (h : Aligned env₁ env₂ marks ts₁ ts₂) (start₁ start₂ : Span) :
    Follows env₁ env₂ marks (readIntersection env₁ start₁ ts₁)
      (readIntersection env₂ start₂ ts₂) := by
  refine (readSingleHint_follows h).andThen fun t₁ us₁ _ t₂ us₂ _ ht hus => ?_
  refine (readMoreJoined_follows hus).map fun more₁ more₂ hmore => ?_
  rw [← hmore.isEmpty_eq]
  split
  · exact ht
  · exact (ht.cons hmore).intersection

theorem readGroup_follows {ts₁ ts₂ : List Item} (h : Aligned env₁ env₂ marks ts₁ ts₂) :
    Follows env₁ env₂ marks (readGroup env₁ ts₁) (readGroup env₂ ts₂) := by
  refine follows_onNext (byKind_isMark .parenOpen) h (fun _ us₁ _ _ us₂ _ _ hus => ?_)
    (readIntersection_follows h _ _)
  refine (readIntersection_follows hus _ _).andThen fun _ _ _ _ _ _ hinner hvs => ?_
  exact (expectMark_follows hvs .parenClose).map fun _ _ _ => hinner.withSpan

theorem readMoreUnited_follows {ts₁ ts₂ : List Item}
    (h : Aligned env₁ env₂ marks ts₁ ts₂) :
    Follows env₁ env₂ marks (readMoreUnited env₁ ts₁) (readMoreUnited env₂ ts₂) := by
  rw [readMoreUnited, readMoreUnited]
  refine follows_onNext (byKind_isMark .pipe) h (fun _ us₁ lt₁ _ us₂ _ _ hus => ?_)
    (follows_done h rfl)
  refine (readGroup_follows hus).andThen fun t₁ vs₁ le₁ t₂ vs₂ _ ht hvs => ?_
  exact (readMoreUnited_follows hvs).map fun _ _ hts => ht.cons hts
termination_by ts₁.length
decreasing_by omega

theorem readHint_follows {ts₁ ts₂ : List Item} (h : Aligned env₁ env₂ marks ts₁ ts₂) :
    Follows env₁ env₂ marks (readHint env₁ ts₁) (readHint env₂ ts₂) := by
  refine follows_onNext (byKind_isMark .question) h (fun _ us₁ _ _ us₂ _ _ hus => ?_) ?_
  · exact (readSingleHint_follows hus).map fun _ _ hinner => hinner.nullable
  · refine (readGroup_follows h).andThen fun t₁ us₁ _ t₂ us₂ _ ht hus => ?_
    refine (readMoreUnited_follows hus).map fun more₁ more₂ hmore => ?_
    rw [← hmore.isEmpty_eq]
    split
    · exact ht
    · exact (ht.cons hmore).union

theorem readReturnHint_follows {ts₁ ts₂ : List Item}
    (h : Aligned env₁ env₂ marks ts₁ ts₂) :
    Follows env₁ env₂ marks (readReturnHint env₁ ts₁) (readReturnHint env₂ ts₂) :=
  follows_onNext (byKind_isMark .colon) h
    (fun _ _ _ _ _ _ _ hus => (readHint_follows hus).map fun _ _ ht => ht.some) (follows_done h rfl)

theorem readHintIf_follows {ts₁ ts₂ : List Item} (h : Aligned env₁ env₂ marks ts₁ ts₂)
    (wanted : Bool) :
    Follows env₁ env₂ marks (readHintIf env₁ wanted ts₁)
      (readHintIf env₂ wanted ts₂) := by
  rw [readHintIf, readHintIf]
  split
  · exact (readHint_follows h).map fun _ _ ht => ht.some
  · exact follows_done h rfl

end PhpHandbook.Declaration
