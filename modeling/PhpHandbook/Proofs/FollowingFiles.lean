import PhpHandbook.Proofs.FollowingBodies

/-!
# Files side by side

A file is read statement by statement.  Whether a class or a namespace starts somewhere is told by
looking ahead, which no reader of a single declaration does as far: behind the opening of an
attribute, tokens are looked at up to its end, through all blocks on the way.  What stands in a
block does not matter for that when its square brackets are balanced.

All rounds over statements go along in both texts.  A block outside all classes is passed over, and
nothing that a class owns stands there, since what is read later stops later.

## Main definitions

* `SameDraft`: what has been read of two files is the same.

## Main statements

* `Aligned.classAhead_eq`: looking ahead for a class gives the same in both texts.
* `statementsRound_follows`: one round over statements is followed in the other text.
* `readStatements_past`: all statements together give the same.
* `parse_of_aligned`: two texts declare the same.
-/

namespace PhpHandbook.Declaration

open Source (Span TokenKind)

variable {env₁ env₂ : Env}

/-! ### Looking ahead -/

section Ahead

variable {t : Item} {us : List Item}

theorem classAhead_zero_of_open (ht : isMark .braceOpen t) : classAhead 0 (t :: us) = false := by
  have hkind : t.kind = .mark .braceOpen := by simpa [isMark] using ht
  simp [classAhead, isMark, isKeyword, classKind?, hkind]

theorem classAhead_succ_of_open (d : Nat) (h : opensSquare t.kind) :
    classAhead (d + 1) (t :: us) = classAhead (d + 2) us := by
  rw [classAhead]
  exact if_pos h

theorem classAhead_succ_of_close (d : Nat) (hopen : ¬opensSquare t.kind)
    (h : closesSquare t.kind) :
    classAhead (d + 1) (t :: us) = classAhead d us := by
  rw [classAhead]
  exact (if_neg hopen).trans (if_pos h)

theorem classAhead_succ_of_other (d : Nat) (hopen : ¬opensSquare t.kind)
    (hclose : ¬closesSquare t.kind) : classAhead (d + 1) (t :: us) = classAhead (d + 1) us := by
  rw [classAhead]
  exact (if_neg hopen).trans (if_neg hclose)

/-- **Balanced brackets within an attribute** do not matter for what is behind it. -/
theorem classAhead_append {n m : Nat} {body : List Item}
    (h : countBrackets opensSquare closesSquare n (kinds body) = some m) :
    classAhead (n + 1) (body ++ us) = classAhead (m + 1) us := by
  induction body generalizing n with
  | nil =>
    cases h
    rfl
  | cons t body ih =>
    rw [kinds, List.map_cons] at h
    rw [List.cons_append]
    by_cases hopen : opensSquare t.kind = true
    · rw [countBrackets_of_open n hopen] at h
      rw [classAhead_succ_of_open n hopen]
      exact ih h
    · by_cases hclose : closesSquare t.kind = true
      · cases n with
        | zero =>
          rw [countBrackets_zero_of_close hopen hclose] at h
          cases h
        | succ n =>
          rw [countBrackets_succ_of_close n hopen hclose] at h
          rw [classAhead_succ_of_close _ hopen hclose]
          exact ih h
      · rw [countBrackets_of_other n hopen hclose] at h
        rw [classAhead_succ_of_other n hopen hclose]
        exact ih h

end Ahead

/-- Looking past an item is the same in both texts when looking behind it is. -/
theorem classAhead_cons_eq {t₁ t₂ : Item} {us₁ us₂ : List Item}
    (hkind : t₁.kind = t₂.kind) (hnext : next (isKind .name) us₁ = next (isKind .name) us₂)
    (hus : ∀ depth, classAhead depth us₁ = classAhead depth us₂) (depth : Nat) :
    classAhead depth (t₁ :: us₁) = classAhead depth (t₂ :: us₂) := by
  have hmark (mark : Source.Mark) := byKind_isMark mark t₁ t₂ hkind
  have hword (word : Source.Keyword) := byKind_isKeyword word t₁ t₂ hkind
  cases depth with
  | zero => rw [classAhead, classAhead, hmark, hword, hword, hword, hkind, hus, hus, hnext]
  | succ d => rw [classAhead, classAhead, hmark, hmark, hmark, hus, hus, hus]

/-- **A class is announced in both texts or in none.** -/
theorem Aligned.classAhead_eq {marks : List Nat} {ts₁ ts₂ : List Item}
    (h : Aligned env₁ env₂ marks ts₁ ts₂) (depth : Nat) :
    classAhead depth ts₁ = classAhead depth ts₂ := by
  rcases h.cases with ⟨-, rfl, rfl⟩ | ⟨t₁, us₁, t₂, us₂, rfl, rfl, hsame, hus⟩ |
    ⟨t₁, c₁, body₁, us₁, t₂, c₂, body₂, us₂, mark, marks', hm⟩
  · rfl
  · exact classAhead_cons_eq hsame.kind_eq (hus.next_eq (byKind_isKind .name))
      hus.classAhead_eq depth
  · obtain ⟨rfl, rfl, rfl, hsame, hdiffer, hus, -⟩ := hm
    have hbehind := hus.classAhead_eq
    cases hdiffer with
    | assigned hname hequals hc =>
      have hnext : next (isKind .name) (c₁ :: us₁) = next (isKind .name) (c₂ :: us₂) :=
        byKind_isKind .name c₁ c₂ hc.kind_eq
      refine classAhead_cons_eq hsame.kind_eq hnext ?_ depth
      exact classAhead_cons_eq hc.kind_eq (hus.next_eq (byKind_isKind .name)) hbehind
    | block ht₁ hb₁ hb₂ hc₁ hc₂ =>
      have ht₂ : isMark .braceOpen t₂ = true :=
        byKind_isMark .braceOpen t₁ t₂ hsame.kind_eq ▸ ht₁
      cases depth with
      | zero => rw [classAhead_zero_of_open ht₁, classAhead_zero_of_open ht₂]
      | succ d =>
        have hskip {t c : Item} {body us : List Item} (ht : isMark .braceOpen t)
            (hb : BracketsBalanced (kinds body)) (hc : isMark .braceClose c) :
            classAhead (d + 1) (t :: (body ++ c :: us)) = classAhead (d + 1) us := by
          have hopen : t.kind = .mark .braceOpen := by simpa [isMark] using ht
          have hclose : c.kind = .mark .braceClose := by simpa [isMark] using hc
          rw [classAhead_succ_of_other d (by simp [opensSquare, hopen])
              (by simp [closesSquare, hopen]),
            classAhead_append (hb.squares.count d),
            classAhead_succ_of_other d (by simp [opensSquare, hclose])
              (by simp [closesSquare, hclose])]
        rw [hskip ht₁ hb₁ hc₁, hskip ht₂ hb₂ hc₂]
        exact hbehind (d + 1)
termination_by ts₁.length
decreasing_by all_goals subst_vars; simp only [List.length_cons, List.length_append]; omega

theorem Aligned.namespaceAhead_eq {marks : List Nat} {ts₁ ts₂ : List Item}
    (h : Aligned env₁ env₂ marks ts₁ ts₂) :
    namespaceAhead ts₁ = namespaceAhead ts₂ := by
  refine h.second_eq (byKind_isKeyword .kwNamespace) (fun i hi hopen => ?_) fun i j hij => ?_
  · simp only [isMark, isKeyword, beq_iff_eq] at hi hopen
    rw [hi] at hopen
    cases hopen
  · simp only [isKind, isMark, hij.kind_eq]

/-! ### Drafts -/

/-- Drafts that are the same but for places. -/
structure SameDraft (d₁ d₂ : Draft) : Prop where
  finished : Same d₁.finished d₂.finished
  current : Same d₁.current d₂.current
  isBraced : d₁.isBraced = d₂.isBraced
  faults : d₁.faults = d₂.faults

section Drafts

variable {d₁ d₂ : Draft} (h : SameDraft d₁ d₂)
include h

theorem SameDraft.enter {b₁ b₂ : NamespaceBlock} (hb : Same b₁ b₂) (isBraced : Bool) :
    SameDraft (d₁.enter b₁ isBraced) (d₂.enter b₂ isBraced) :=
  ⟨h.finished.append (h.current.cons (Same.refl _)), hb, rfl, h.faults⟩

theorem SameDraft.addImports {is₁ is₂ : List Import} (his : Same is₁ is₂) :
    SameDraft (d₁.addImports is₁) (d₂.addImports is₂) := by
  refine ⟨h.finished, ?_, h.isBraced, h.faults⟩
  have himports : Same d₁.current.imports d₂.current.imports :=
    h.current.congr NamespaceBlock.imports
  exact Same.block (h.current.congr NamespaceBlock.name) (himports.append his)
    (h.current.congr NamespaceBlock.classes)

theorem SameDraft.addClass {c₁ c₂ : ClassLike} (hc : Same c₁ c₂) :
    SameDraft (d₁.addClass c₁) (d₂.addClass c₂) := by
  refine ⟨h.finished, ?_, h.isBraced, h.faults⟩
  have hclasses : Same d₁.current.classes d₂.current.classes :=
    h.current.congr NamespaceBlock.classes
  exact Same.block (h.current.congr NamespaceBlock.name) (h.current.congr NamespaceBlock.imports)
    (hclasses.append (hc.cons (Same.refl _)))

theorem SameDraft.addFaults (faults : List Fault) :
    SameDraft (d₁.addFaults faults) (d₂.addFaults faults) :=
  ⟨h.finished, h.current, h.isBraced, congrArg (· ++ faults) h.faults⟩

theorem SameDraft.leave (s t : Span) : SameDraft (d₁.leave s) (d₂.leave t) := by
  rw [Draft.leave, Draft.leave, ← h.isBraced]
  split
  · refine ⟨h.finished, ?_, rfl, h.faults⟩
    exact Same.block (h.current.congr NamespaceBlock.name) (h.current.congr NamespaceBlock.imports)
      (h.current.congr NamespaceBlock.classes)
  · exact h

theorem SameDraft.blocks : Same d₁.blocks d₂.blocks := by
  have hall : Same (d₁.finished ++ [d₁.current]) (d₂.finished ++ [d₂.current]) :=
    h.finished.append (h.current.cons (Same.refl _))
  refine hall.filter fun b => ?_
  show (b.name.isSome || !(b.classes.map Spanned.withoutSpans).isEmpty
    || !(b.imports.map Spanned.withoutSpans).isEmpty) = _
  rw [List.isEmpty_map, List.isEmpty_map]

end Drafts

/-! ### Statements -/

theorem byKind_separates : ByKind separates :=
  byKind_of_kind fun k => k == .openTag || k == .closeTag || k == .inlineHtml ||
    k == .mark .semicolon

theorem Draft.addFaults_ne_nil (d : Draft) (fault : Fault) :
    (d.addFaults [fault]).faults ≠ [] := by
  simp [addFaults]

/-- A class that cannot be read has a fault. -/
theorem readClass_faults_ne_nil (env : Env) (ts : List Item) {faults : List Fault}
    (h : (readClass env ts).outcome = .error faults) : faults ≠ [] := by
  rcases hheader : readHeader env ts with ⟨outcome, us, suffix⟩
  cases outcome with
  | error fault =>
    rw [readClass, hheader] at h
    cases h
    exact List.cons_ne_nil _ _
  | ok header =>
    rw [readClass_of_ok env hheader, Reading.outcome_widen] at h
    rcases hbody : readBody env {} us with ⟨outcome, vs, suffix'⟩
    cases outcome with
    | error fault =>
      rw [readClassRest, hbody] at h
      cases h
      exact List.cons_ne_nil _ _
    | ok a =>
      obtain ⟨ms, faults'⟩ := a
      rw [readClassRest_of_ok env header hbody, Reading.outcome_widen] at h
      rcases hclose : expectMark env .braceClose vs with ⟨outcome, ws, suffix''⟩
      rw [hclose] at h
      cases outcome with
      | error fault =>
        cases h
        simp
      | ok closing => cases h

/-- **A round over statements** is followed in the other text. -/
theorem statementsRound_follows {marks : List Nat} {ts₁ ts₂ us₁ : List Item}
    (h : Aligned env₁ env₂ marks ts₁ ts₂) {d₁ d₂ d₁' : Draft}
    (hd : SameDraft d₁ d₂) {fresh fresh' : Bool} {finish : Draft → Draft}
    (hround : statementsRound env₁ (d₁, fresh) ts₁ = .again (d₁', fresh') us₁ finish)
    (hfaults : d₁'.faults = []) (hmarks : ∀ e ∈ marks, e ∈ d₁'.ownStops ∨ Ahead us₁ e)
    (hfresh : ∀ e ∈ marks, e ∉ d₁.ownStops) :
    ∃ d₂' us₂ marks', statementsRound env₂ (d₂, fresh) ts₂
      = .again (d₂', fresh') us₂ id ∧
      SameDraft d₁' d₂' ∧ marks' ⊆ marks ∧ Aligned env₁ env₂ marks' us₁ us₂ := by
  rcases h.head?_cases with ⟨rfl, rfl⟩ | ⟨t₁, vs₁, t₂, vs₂, rfl, rfl, hsame⟩
  · cases hround
  · have hsep := byKind_separates t₁ t₂ hsame.kind_eq
    have huse := byKind_isKeyword .kwUse t₁ t₂ hsame.kind_eq
    have hopen := byKind_isMark .braceOpen t₁ t₂ hsame.kind_eq
    have hclose := byKind_isMark .braceClose t₁ t₂ hsame.kind_eq
    rw [statementsRound] at hround ⊢
    rw [← hsep, ← h.namespaceAhead_eq, ← huse, ← h.classAhead_eq, ← hopen, ← hclose]
    -- a round that adds no class leaves all places that differ ahead
    have hahead (hclasses : d₁'.classes = d₁.classes) : ∀ e ∈ marks, Ahead us₁ e := by
      intro e he
      have hor := hmarks e he
      rw [Draft.ownStops_of_classes hclasses] at hor
      exact hor.resolve_left (hfresh e he)
    have htail (hclasses : d₁'.classes = d₁.classes) (hus₁ : us₁ <:+ vs₁) :
        Aligned env₁ env₂ marks vs₁ vs₂ :=
      h.tail fun e he => (hahead hclasses e he).mono hus₁
    split at hround
    · next hs =>
      rw [if_pos hs]
      cases hround
      exact ⟨d₂, vs₂, marks, rfl, hd, List.Subset.refl _, htail rfl (List.suffix_refl _)⟩
    next hs =>
    rw [if_neg hs]
    split at hround
    · next hns =>
      rw [if_pos hns]
      rcases hread₁ :
        readNamespace env₁ t₁.token.span vs₁ with ⟨outcome₁, ws₁, suffix₁⟩
      rw [hread₁] at hround
      cases outcome₁ with
      | error fault =>
        cases hround
        exact absurd hfaults (Draft.addFaults_ne_nil d₁ fault)
      | ok a₁ =>
        have hnone : a₁.1.classes = [] := readNamespace_classes.of_eq hread₁
        cases hround
        have hclasses := d₁.classes_enter hnone a₁.2
        obtain ⟨a₂, ws₂, suffix₂, hread₂, hblock, hws⟩ :=
          (readNamespace_follows (htail hclasses suffix₁) t₁.token.span
            t₂.token.span).exists_eq hread₁
            (hahead hclasses)
        rw [hread₂]
        obtain ⟨block₁, isBraced₁⟩ := a₁
        obtain ⟨block₂, isBraced₂⟩ := a₂
        obtain rfl : isBraced₁ = isBraced₂ := hblock.snd
        exact ⟨_, ws₂, marks, rfl, hd.enter hblock.fst _, List.Subset.refl _, hws⟩
    next hns =>
    rw [if_neg hns]
    split at hround
    · next hu =>
      rw [if_pos hu]
      rcases hread₁ : readImports env₁ vs₁ with ⟨outcome₁, ws₁, suffix₁⟩
      rw [hread₁] at hround
      cases outcome₁ with
      | error fault =>
        cases hround
        exact absurd hfaults (Draft.addFaults_ne_nil d₁ fault)
      | ok items₁ =>
        cases hround
        have hclasses := d₁.classes_addImports items₁
        obtain ⟨items₂, ws₂, suffix₂, hread₂, hitems, hws⟩ :=
          (readImports_follows (htail hclasses suffix₁)).exists_eq hread₁ (hahead hclasses)
        rw [hread₂]
        exact ⟨_, ws₂, marks, rfl, hd.addImports hitems, List.Subset.refl _, hws⟩
    next hu =>
    rw [if_neg hu]
    split at hround
    · next hc =>
      rw [if_pos hc]
      rcases hread₁ : readClass env₁ (t₁ :: vs₁) with ⟨outcome₁, ws₁, suffix₁⟩
      rw [hread₁] at hround
      cases outcome₁ with
      | error faults =>
        cases hround
        obtain ⟨-, hnone⟩ := List.append_eq_nil_iff.1 hfaults
        exact absurd hnone (readClass_faults_ne_nil env₁ _ (by rw [hread₁]))
      | ok a₁ =>
        obtain ⟨c₁, faults⟩ := a₁
        cases hround
        obtain ⟨-, rfl⟩ := List.append_eq_nil_iff.1 hfaults
        have hpast := @readClass_past _ _ _ _ _ h c₁ (by rw [hread₁])
        rw [hread₁] at hpast
        obtain ⟨c₂, marks', hc₂, hclass, hsub, hws⟩ := hpast fun e he => by
          have hor := hmarks e he
          rw [Draft.ownStops_addClass, List.mem_append] at hor
          exact hor.imp_left fun hin => hin.resolve_left (hfresh e he)
        rw [Reading.eq_of_outcome hc₂]
        exact ⟨_, _, marks', rfl, (hd.addFaults []).addClass hclass, hsub, hws⟩
    next hc =>
    rw [if_neg hc]
    split at hround
    · next ho =>
      rw [if_pos ho]
      rcases hread₁ : skipToClose t₁.token.span 0 vs₁ with ⟨outcome₁, ws₁, suffix₁⟩
      rw [hread₁] at hround
      cases outcome₁ with
      | error fault => cases hround
      | ok span₁ =>
        cases hround
        obtain ⟨span₂, ws₂, suffix₂, hread₂, -, hws⟩ :=
          (skipToClose_follows (htail rfl suffix₁) t₁.token.span t₂.token.span 0).exists_eq
            hread₁ (hahead rfl)
        rw [hread₂]
        exact ⟨d₂, ws₂, marks, rfl, hd, List.Subset.refl _, hws⟩
    next ho =>
    rw [if_neg ho]
    split at hround
    · next hcl =>
      rw [if_pos hcl]
      cases hround
      exact ⟨_, vs₂, marks, rfl, hd.leave _ _, List.Subset.refl _,
        htail (d₁.classes_leave _) (List.suffix_refl _)⟩
    · next hcl =>
      rw [if_neg hcl]
      cases hround
      exact ⟨d₂, vs₂, marks, rfl, hd, List.Subset.refl _, htail rfl (List.suffix_refl _)⟩

/-- Statements end in front of a token only with a fault. -/
theorem statementsRound_exit (env : Env) (d : Draft) (fresh : Bool) {t : Item} {us vs : List Item}
    {depth : Int} {a : Draft} (h : statementsRound env (d, fresh) (t :: us) = .exit depth vs a) :
    a.faults ≠ [] := by
  rw [statementsRound] at h
  split at h
  · cases h
  split at h
  · split at h <;> cases h
  split at h
  · split at h <;> cases h
  split at h
  · split at h <;> cases h
  split at h
  · split at h
    · cases h
    · cases h
      exact Draft.addFaults_ne_nil d _
  split at h <;> cases h

/-- **The statements of two texts give the same** whatever stands in the places that belong to
classes. -/
theorem readStatements_past {marks : List Nat} {ts₁ ts₂ : List Item}
    (h : Aligned env₁ env₂ marks ts₁ ts₂) {d₁ d₂ : Draft} (hd : SameDraft d₁ d₂)
    (fresh : Bool) (hfaults : (readStatements env₁ d₁ fresh ts₁).faults = [])
    (hmarks : ∀ e ∈ marks, e ∈ (readStatements env₁ d₁ fresh ts₁).ownStops)
    (hfresh : ∀ e ∈ marks, e ∉ d₁.ownStops) :
    SameDraft (readStatements env₁ d₁ fresh ts₁)
      (readStatements env₂ d₂ fresh ts₂) := by
  cases hround₁ : statementsRound env₁ (d₁, fresh) ts₁ with
  | exit depth us a =>
    rw [readStatements_of_exit hround₁] at hfaults
    cases ts₁ with
    | cons t₁ vs₁ => exact absurd hfaults (statementsRound_exit env₁ d₁ fresh hround₁)
    | nil =>
      rcases h.head?_cases with ⟨-, rfl⟩ | ⟨_, _, _, _, hcons, -⟩
      · rwa [readStatements, readStatements]
      · cases hcons
  | again s us₁ finish =>
    obtain ⟨d₁', fresh'⟩ := s
    have hadds := statementsRound_adds env₁ d₁ fresh h.ordered
    rw [hround₁] at hadds
    obtain ⟨rfl, hadds⟩ := hadds
    obtain ⟨hus₁, hlt, hanswer₁⟩ := readStatements_of_again hround₁
    have hanswer₁ : readStatements env₁ d₁ fresh ts₁
        = readStatements env₁ d₁' fresh' us₁ := hanswer₁
    rw [hanswer₁] at hfaults hmarks ⊢
    obtain ⟨hstops, hnone⟩ := readStatements_adds env₁ d₁' fresh' (h.ordered.suffix hus₁)
    obtain ⟨d₂', us₂, marks', hround₂, hd', hsub, hus⟩ :=
      statementsRound_follows h hd hround₁
      (hnone hfaults) (fun e he => hstops e (hmarks e he)) hfresh
    have hanswer₂ :
        readStatements env₂ d₂ fresh ts₂ = readStatements env₂ d₂' fresh' us₂ :=
      (readStatements_of_again hround₂).2.2
    have hfresh' : ∀ e ∈ marks', e ∉ d₁'.ownStops := by
      intro e he hin
      rcases hadds.stops e hin with hold | hended
      · exact hfresh e (hsub he) hold
      · exact hended.not_ahead (hus.marks_ahead e he)
    rw [hanswer₂]
    exact readStatements_past hus hd' fresh' hfaults (fun e he => hmarks e (hsub he)) hfresh'
termination_by ts₁.length
decreasing_by omega

/-- The statements of two texts give the same whatever the bodies of methods hold. -/
theorem readStatements_same {marks : List Nat} {ts₁ ts₂ : List Item}
    (h : Aligned env₁ env₂ marks ts₁ ts₂) {d₁ d₂ : Draft} (hd : SameDraft d₁ d₂)
    (fresh : Bool) (hfaults : (readStatements env₁ d₁ fresh ts₁).faults = [])
    (hmarks : ∀ e ∈ marks, e ∈ (readStatements env₁ d₁ fresh ts₁).bodyStops)
    (hfresh : ∀ e ∈ marks, e ∉ d₁.ownStops) :
    SameDraft (readStatements env₁ d₁ fresh ts₁) (readStatements env₂ d₂ fresh ts₂) :=
  readStatements_past h hd fresh hfaults (fun e he => Draft.bodyStops_subset _ (hmarks e he)) hfresh

/-- **Two texts declare the same** if their items stand side by side, and the places where they
differ belong to what the first one declares. -/
theorem parse_of_aligned {text₁ text₂ : List Char} {eof₁ eof₂ : Source.Token}
    {marks : List Nat} {us₁ us₂ : List Item} {last₁ last₂ : List Comment}
    (hitems₁ : attachComments [] (Source.tokenize text₁).tokens
      = us₁ ++ [⟨last₁, eof₁⟩])
    (hitems₂ : attachComments [] (Source.tokenize text₂).tokens
      = us₂ ++ [⟨last₂, eof₂⟩])
    (haligned : Aligned ⟨text₁, eof₁⟩ ⟨text₂, eof₂⟩ marks us₁ us₂)
    {f₁ : SourceFile} (hparse : (parse text₁).outcome = .ok f₁)
    (hmarks : ∀ e ∈ marks, ∃ c ∈ f₁.classes, e ∈ c.toMembers.ownStops) :
    ∃ f₂, (parse text₂).outcome = .ok f₂ ∧
      Spanned.withoutSpans f₁ = Spanned.withoutSpans f₂ := by
  rw [parse_outcome_of_items hitems₁] at hparse
  rw [parse_outcome_of_items hitems₂]
  dsimp only at hparse ⊢
  split at hparse
  · next hfaults =>
    cases hparse
    have hstart :
        SameDraft
          { current := { name := none, span := (Env.current ⟨text₁, eof₁⟩ us₁).span } }
          { current := { name := none, span := (Env.current ⟨text₂, eof₂⟩ us₂).span } } :=
      ⟨rfl, rfl, rfl, rfl⟩
    have hsame := readStatements_past haligned hstart true (List.isEmpty_iff.1 hfaults)
      (fun e he => by
        obtain ⟨c, hc, hstop⟩ := hmarks e he
        exact List.mem_flatMap.2 ⟨c, Draft.flatMap_blocks _ ▸ hc, hstop⟩)
      fun _ _ => List.not_mem_nil
    have hnone : (readStatements ⟨text₂, eof₂⟩ _ true us₂).faults.isEmpty = true :=
      hsame.faults ▸ hfaults
    exact ⟨_, if_pos hnone, congrArg (SourceFile.mk · ⟨0, 0⟩) hsame.blocks⟩
  · cases hparse

end PhpHandbook.Declaration
