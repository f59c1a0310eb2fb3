import PhpHandbook.Proofs.HintShapes

/-!
# Printed types are read back

A native type is printed as tokens without gaps.  Wherever the text does not go on with a character
of a name, these tokens are told apart, and the reader of types gives a type that is the same but
for places.  The proofs follow the shapes of types: names, intersections, groups and unions.

## Main definitions

* `TypeHint.words`: the tokens that a type is printed as.
* `ReadsBack`: a reader gives a value back from the tokens that it is printed as.

## Main statements

* `TypeHint.IsWhole.text_words`, `TypeHint.IsWhole.legible`: the tokens make up the printed text.
* `readsBack_hint`: a whole type is read back.
-/

namespace PhpHandbook

namespace Source

open Written (text)

/-- Tokens of several parts, with a mark between them. -/
def Written.listed (separator : Mark) : List (List Written) → List Written
  | [] => []
  | part :: parts => part ++ parts.flatMap (.mark separator :: ·)

theorem Written.text_flatMap (separator : Mark) (parts : List (List Written)) :
    text (parts.flatMap (.mark separator :: ·))
      = parts.flatMap fun part => separator.text.toList ++ text part := by
  induction parts with
  | nil => rfl
  | cons part parts ih =>
    rw [List.flatMap_cons, List.flatMap_cons, text_append, ih, text, mark, List.append_nil]

theorem intercalate_eq_flatMap (separator : List Char) (part : List Char)
    (parts : List (List Char)) :
    separator.intercalate (part :: parts) = part ++ parts.flatMap (separator ++ ·) := by
  induction parts generalizing part with
  | nil => simp
  | cons next parts ih =>
    simp only [List.intercalate_cons_cons, ih, List.flatMap_cons, List.append_assoc]

/-- The text of several parts, with a mark between them. -/
theorem Written.text_listed (separator : Mark) (parts : List (List Written)) :
    text (listed separator parts) = separator.text.toList.intercalate (parts.map text) := by
  cases parts with
  | nil => rfl
  | cons part parts =>
    rw [listed, text_append, text_flatMap, List.map_cons, intercalate_eq_flatMap, List.flatMap_map]

/-- Marks that stand between types. -/
def Mark.SeparatesTypes (mark : Mark) : Prop :=
  mark = .ampersand ∨ mark = .pipe

/-- **Tokens of a part of a type**: they are told apart where no name goes on, and do not begin like
an operator. -/
structure Standalone (ws : List Written) : Prop where
  legible : ∀ rest, EndsName rest → Legible rest ws
  head : ∃ c cs, text ws = c :: cs ∧ isOperatorChar c = false

theorem endsName_mark {separator : Mark} (h : separator.SeparatesTypes) (rest : List Char) :
    EndsName (separator.text.toList ++ rest) := by
  rintro c hc
  rcases h with rfl | rfl
  all_goals
    obtain rfl := Option.some.inj hc
    decide

theorem legible_separator {separator : Mark} (h : separator.SeparatesTypes) {ws : List Written}
    {rest : List Char} (hws : Legible rest ws)
    (hhead : ∃ c cs, text ws ++ rest = c :: cs ∧ isOperatorChar c = false) :
    Legible rest (.mark separator :: ws) := by
  obtain ⟨c, cs, htext, hc⟩ := hhead
  refine ⟨scans_mark ?_, nofun, fun d hd => ?_, hws⟩
  · rcases h with rfl | rfl <;> rfl
  · rw [Written.mark, List.nil_append, htext] at hd
    obtain rfl := Option.some.inj hd
    rcases h with rfl | rfl <;> exact hc

theorem endsName_separated {separator : Mark} (h : separator.SeparatesTypes)
    (parts : List (List Written)) {rest : List Char} (hrest : EndsName rest) :
    EndsName (text (parts.flatMap (.mark separator :: ·)) ++ rest) := by
  cases parts with
  | nil => exact hrest
  | cons part parts =>
    rw [List.flatMap_cons, List.cons_append, text, Written.mark, List.append_nil, List.append_assoc]
    exact endsName_mark h _

theorem legible_separated {separator : Mark} (h : separator.SeparatesTypes)
    {parts : List (List Written)} (hparts : ∀ part ∈ parts, Standalone part) {rest : List Char}
    (hrest : EndsName rest) : Legible rest (parts.flatMap (.mark separator :: ·)) := by
  induction parts with
  | nil => trivial
  | cons part parts ih =>
    obtain ⟨hpart, hparts⟩ := List.forall_mem_cons.1 hparts
    obtain ⟨c, cs, htext, hc⟩ := hpart.head
    rw [List.flatMap_cons]
    refine legible_append
      (legible_separator h ?_ ⟨c, _, congrArg (· ++ _) htext, hc⟩) (ih hparts)
    exact hpart.legible _ (endsName_separated h parts hrest)

/-- **Several parts with a mark between them** can stand where each of them can. -/
theorem standalone_listed {separator : Mark} (h : separator.SeparatesTypes)
    {parts : List (List Written)} (hne : parts ≠ [])
    (hparts : ∀ part ∈ parts, Standalone part) :
    Standalone (Written.listed separator parts) := by
  obtain ⟨part, parts, rfl⟩ := List.exists_cons_of_ne_nil hne
  obtain ⟨hpart, hparts⟩ := List.forall_mem_cons.1 hparts
  refine ⟨fun rest hrest => ?_, ?_⟩
  · exact legible_append (hpart.legible _ (endsName_separated h parts hrest))
      (legible_separated h hparts hrest)
  · obtain ⟨c, cs, htext, hc⟩ := hpart.head
    exact ⟨c, _, by rw [Written.listed, Written.text_append, htext, List.cons_append], hc⟩

theorem TokenKind.goesOn_of_namesType {kind : TokenKind} (h : kind.namesType) (c : Char) :
    kind.goesOn c = (isNamePart c || c == '\\') := by
  cases kind <;> first | rfl | cases h

theorem isOperatorChar_of_isNameStart {c : Char} (hc : isNameStart c = true) :
    isOperatorChar c = false := by
  by_contra hoperator
  rw [Bool.not_eq_false, isOperatorChar, List.contains_iff_mem] at hoperator
  have hall : ∀ d ∈ "+-*/%<>!~^=@|&?".toList, (!isNameStart d) = true :=
    List.all_eq_true.1 (by decide)
  have hnot := hall c hoperator
  rw [hc] at hnot
  cases hnot

/-- A name of a type. -/
theorem standalone_name {lexeme : List Char} (h : ReadsAgain lexeme) :
    Standalone [⟨nameKind lexeme, lexeme, []⟩] := by
  obtain ⟨c, cs, rfl, -⟩ := h.scans
  refine ⟨fun rest hrest => ⟨h.scans, nofun, fun d hd => ?_, trivial⟩, c, cs,
    by simp [text], ?_⟩
  · rw [TokenKind.goesOn_of_namesType h.kind, (hrest d hd).1, Bool.false_or, beq_eq_false_iff_ne]
    exact (hrest d hd).2
  · rcases h.head c rfl with hc | rfl
    · exact isOperatorChar_of_isNameStart hc
    · decide

end Source

namespace Declaration

open Source (Written Legible EndsName Standalone Mark nameKind)
open Source.Written (text)

/-! ### Types as tokens -/

namespace TypeHint

mutual

/-- **The tokens that a type is printed as.** -/
def words : TypeHint → List Written
  | .named name _ => [⟨nameKind name.written.toList, name.written.toList, []⟩]
  | .nullable inner _ => .mark .question :: inner.words
  | .union members _ => Written.listed .pipe (allWords members)
  | .intersection members _ =>
    .mark .parenOpen :: (Written.listed .ampersand (allWords members) ++ [.mark .parenClose])

/-- The tokens that several types are printed as. -/
def allWords : List TypeHint → List (List Written)
  | [] => []
  | t :: ts => t.words :: allWords ts

end

theorem allWords_eq (ts : List TypeHint) : allWords ts = ts.map words := by
  induction ts with
  | nil => rfl
  | cons t ts ih => rw [allWords, ih, List.map_cons]

theorem texts_eq (ts : List TypeHint) : texts ts = ts.map TypeHint.text := by
  induction ts with
  | nil => rfl
  | cons t ts ih => rw [texts, ih, List.map_cons]

theorem text_listed {separator : Mark} {ts : List TypeHint}
    (h : ∀ t ∈ ts, Written.text t.words = t.text.toList) :
    Written.text (Written.listed separator (ts.map words))
      = (separator.text.intercalate (ts.map TypeHint.text)).toList := by
  rw [Written.text_listed, String.toList_intercalate, List.map_map, List.map_map]
  exact congrArg _ (List.map_congr_left h)

theorem IsSingle.text_words {t : TypeHint} (h : t.IsSingle) :
    Written.text t.words = t.text.toList := by
  cases t with
  | named name span => simp [words, Written.text, TypeHint.text]
  | _ => exact h.elim

theorem IsJoined.text_words {t : TypeHint} (h : t.IsJoined) :
    Written.text t.words = t.text.toList := by
  cases t with
  | named => exact IsSingle.text_words h
  | intersection members span =>
    rw [words, TypeHint.text, Written.text, Written.text_append, allWords_eq, texts_eq,
      text_listed fun t ht => (h.2 t ht).text_words, String.toList_append, String.toList_append]
    simp [Written.mark, Written.text, Mark.text]
  | _ => exact h.elim

/-- **The tokens make up the printed text.** -/
theorem IsWhole.text_words {t : TypeHint} (h : t.IsWhole) :
    Written.text t.words = t.text.toList := by
  cases t with
  | named => exact IsSingle.text_words h
  | nullable inner span =>
    rw [words, TypeHint.text, Written.text, IsSingle.text_words h, String.toList_append]
    rfl
  | union members span =>
    rw [words, TypeHint.text, allWords_eq, texts_eq, text_listed fun t ht => (h.2 t ht).text_words]
    rfl
  | intersection => exact @IsJoined.text_words (.intersection _ _) h

theorem IsSingle.standalone {t : TypeHint} (h : t.IsSingle) : Standalone t.words := by
  cases t with
  | named name span => exact Source.standalone_name h.1
  | _ => exact h.elim

theorem standalone_listed {separator : Mark} (hseparator : separator.SeparatesTypes)
    {ts : List TypeHint} (hne : ts ≠ []) (h : ∀ t ∈ ts, Standalone t.words) :
    Standalone (Written.listed separator (ts.map words)) := by
  refine Source.standalone_listed hseparator (mt List.map_eq_nil_iff.1 hne) fun part hpart => ?_
  obtain ⟨t, ht, rfl⟩ := List.mem_map.1 hpart
  exact h t ht

theorem ne_nil_of_two_le {ts : List TypeHint} (h : 2 ≤ ts.length) : ts ≠ [] := by
  rintro rfl
  exact absurd h (by decide)

theorem IsJoined.standalone {t : TypeHint} (h : t.IsJoined) : Standalone t.words := by
  cases t with
  | named => exact IsSingle.standalone h
  | intersection members span =>
    have hlisted := @standalone_listed .ampersand (.inl rfl) members (ne_nil_of_two_le h.1)
      fun t ht => (h.2 t ht).standalone
    rw [← allWords_eq] at hlisted
    refine ⟨fun rest _ => ⟨Source.scans_mark rfl, nofun, fun _ _ => rfl, ?_⟩, '(', _, rfl,
      by decide⟩
    refine Source.legible_append (hlisted.legible _ ?_)
      ⟨Source.scans_mark rfl, nofun, fun _ _ => rfl, trivial⟩
    rintro c ⟨⟩
    decide
  | _ => exact h.elim

/-- **The tokens of a type are told apart** where no name goes on. -/
theorem IsWhole.legible {t : TypeHint} (h : t.IsWhole) {rest : List Char} (hrest : EndsName rest) :
    Legible rest t.words := by
  cases t with
  | named => exact (@IsSingle.standalone (.named _ _) h).legible rest hrest
  | nullable inner span =>
    obtain ⟨c, cs, htext, hc⟩ := (IsSingle.standalone h).head
    refine ⟨Source.scans_mark rfl, nofun, fun d hd => ?_,
      (IsSingle.standalone h).legible rest hrest⟩
    rw [Written.mark, List.nil_append, htext] at hd
    obtain rfl := Option.some.inj hd
    exact hc
  | union members span =>
    have hlisted := @standalone_listed .pipe (.inr rfl) members (ne_nil_of_two_le h.1)
      fun t ht => (h.2 t ht).standalone
    rw [← allWords_eq] at hlisted
    exact hlisted.legible rest hrest
  | intersection => exact (@IsJoined.standalone (.intersection _ _) h).legible rest hrest

end TypeHint

/-! ### Reading back -/

/-- **A reader gives a value back**, the same but for places, from the tokens that it is printed
as. -/
def ReadsBack {α : Type} [Spanned α] (read : (ts : List Item) → Read α ts)
    (ws : List Written) (a : α) (rest : List Item) : Prop :=
  ∀ is, List.Forall₂ Item.Spells ws is →
    ∃ a', Same a' a ∧ (read (is ++ rest)).Reads a' rest

/-- What stands behind a type does not go on with it. -/
structure EndsHint (rest : List Item) : Prop where
  joins : joinsHints rest = false
  pipe : next (isMark .pipe) rest = false

theorem isMark_spells {mark other : Mark} {gap : List Char} {i : Item}
    (h : i.Spells (.mark mark gap)) : isMark other i = (mark == other) := by
  rw [isMark, h.kind, Written.mark]
  cases mark <;> cases other <;> rfl

section ReadsBack

variable {env : Env} {rest : List Item}

theorem exists_spells_single {t : TypeHint} (h : t.IsSingle) {is : List Item}
    (his : List.Forall₂ Item.Spells t.words is) :
    ∃ i, is = [i] ∧ isTypeName i = true ∧ (∀ mark, isMark mark i = false) ∧
      Same (TypeHint.named (Name.ofText i.token.lexeme i.token.span) i.token.span) t := by
  cases t with
  | named name span =>
    obtain ⟨i, his', hi, hnil, rfl⟩ := List.forall₂_cons_left_iff.1 his
    obtain rfl := List.forall₂_nil_left_iff.1 hnil
    have hkind := h.1.kind
    have htype : isTypeName i = i.kind.namesType := rfl
    refine ⟨i, rfl, ?_, fun mark => ?_, ?_⟩
    · rw [htype, hi.kind]
      exact hkind
    · rw [isMark, hi.kind, beq_eq_false_iff_ne]
      intro hmark
      rw [show (nameKind name.written.toList) = .mark mark from hmark] at hkind
      cases hkind
    · rw [hi.lexeme, String.ofList_toList]
      exact congrArg (TypeHint.named · ⟨0, 0⟩) (h.2 i.token.span)
  | _ => exact h.elim

theorem readsBack_single {t : TypeHint} (h : t.IsSingle) (rest : List Item) :
    ReadsBack (readSingleHint env) t.words t rest := by
  intro is his
  obtain ⟨i, rfl, hname, -, hsame⟩ := exists_spells_single h his
  exact ⟨_, hsame, (Reading.reads_expect hname _ _).map rfl⟩

theorem joinsHints_of_mark {mark : Mark} (hmark : mark ≠ .ampersand) {gap : List Char} {i : Item}
    (hi : i.Spells (.mark mark gap)) (us : List Item) : joinsHints (i :: us) = false := by
  have hnext : next (isMark .ampersand) (i :: us) = (mark == .ampersand) := by
    rw [← isMark_spells hi]
    simp [next]
  rw [joinsHints, hnext, beq_eq_false_iff_ne.2 hmark, Bool.false_and]

/-- More members of an intersection are read back. -/
theorem readsBack_moreJoined {ts : List TypeHint} (h : ∀ t ∈ ts, t.IsSingle)
    (hrest : joinsHints rest = false) :
    ReadsBack (readMoreJoined env) ((ts.map TypeHint.words).flatMap (.mark .ampersand :: ·))
      ts rest := by
  induction ts with
  | nil =>
    intro is his
    obtain rfl := List.forall₂_nil_left_iff.1 his
    refine ⟨[], Same.refl _, ?_⟩
    rw [List.nil_append, readMoreJoined, hrest]
    exact Reading.reads_done []
  | cons t ts ih =>
    intro is his
    obtain ⟨ht, hts⟩ := List.forall_mem_cons.1 h
    rw [List.map_cons, List.flatMap_cons, List.cons_append] at his
    obtain ⟨ampersand, vs, hampersand, hvs, rfl⟩ := List.forall₂_cons_left_iff.1 his
    obtain ⟨us, ws, hus, hws, rfl⟩ := exists_spells_append hvs
    obtain ⟨i, rfl, hname, -⟩ := exists_spells_single ht hus
    have hmark : isMark .ampersand ampersand = true := isMark_spells hampersand
    have hjoins : joinsHints (ampersand :: ([i] ++ ws) ++ rest) = true := by
      simp [joinsHints, next, second, hmark, hname]
    obtain ⟨t', ht', hread⟩ := @readsBack_single env t ht (ws ++ rest) [i] hus
    obtain ⟨ts', hts', hreadMore⟩ := ih hts ws hws
    refine ⟨t' :: ts', ht'.cons hts', ?_⟩
    rw [readMoreJoined, if_pos hjoins, List.cons_append, List.append_assoc]
    exact Reading.reads_onNext hmark (hread.andThen fun _ => hreadMore.map rfl)

/-- A name, or an intersection of names, is read back. -/
theorem readsBack_intersection {t : TypeHint} {ts : List TypeHint} (start : Source.Span)
    (h : ∀ u ∈ t :: ts, u.IsSingle) (hrest : joinsHints rest = false) (span : Source.Span) :
    ReadsBack (readIntersection env start)
      (Written.listed .ampersand ((t :: ts).map TypeHint.words))
      (if ts.isEmpty then t else .intersection (t :: ts) span) rest := by
  intro is his
  obtain ⟨ht, hts⟩ := List.forall_mem_cons.1 h
  obtain ⟨us, ws, hus, hws, rfl⟩ := exists_spells_append his
  rw [List.append_assoc]
  obtain ⟨t', ht', hread⟩ := @readsBack_single env t ht (ws ++ rest) us hus
  obtain ⟨ts', hts', hreadMore⟩ := @readsBack_moreJoined env rest ts hts hrest ws hws
  refine ⟨if ts'.isEmpty then t'
    else .intersection (t' :: ts') (coverHints start (t' :: ts')), ?_,
    hread.andThen fun _ => hreadMore.map rfl⟩
  rw [hts'.isEmpty_eq]
  split
  · exact ht'
  · exact (ht'.cons hts').intersection

/-- An intersection, with or without parentheses, is read back. -/
theorem readsBack_group {t : TypeHint} (h : t.IsJoined) (hrest : joinsHints rest = false) :
    ReadsBack (readGroup env) t.words t rest := by
  intro is his
  cases t with
  | named name span =>
    have h : (TypeHint.named name span).IsSingle := h
    obtain ⟨i, rfl, -, hmark, -⟩ := exists_spells_single h his
    have hparen : ([i] ++ rest).head?.any (isMark .parenOpen) = false := by simp [hmark]
    have hsingle : ∀ u ∈ [TypeHint.named name span], u.IsSingle := by simpa using h
    obtain ⟨t', ht', hread⟩ := @readsBack_intersection env rest (.named name span) []
      (env.current ([i] ++ rest)).span hsingle hrest span [i] (by simpa [Written.listed] using his)
    exact ⟨t', ht', Reading.reads_onNext_no hparen hread⟩
  | intersection members span =>
    obtain ⟨t, ts, rfl⟩ := List.exists_cons_of_ne_nil (TypeHint.ne_nil_of_two_le h.1)
    rw [TypeHint.words, TypeHint.allWords_eq] at his
    obtain ⟨opening, vs, hopening, hvs, rfl⟩ := List.forall₂_cons_left_iff.1 his
    obtain ⟨us, closings, hus, hclosings, rfl⟩ := exists_spells_append hvs
    obtain ⟨closing, _, hclosing, hnil, rfl⟩ := List.forall₂_cons_left_iff.1 hclosings
    obtain rfl := List.forall₂_nil_left_iff.1 hnil
    have hopen : isMark .parenOpen opening = true := isMark_spells hopening
    have hclose : isMark .parenClose closing = true := isMark_spells hclosing
    have hjoins : joinsHints ([closing] ++ rest) = false :=
      joinsHints_of_mark (by decide) hclosing _
    obtain ⟨t', ht', hread⟩ :=
      @readsBack_intersection env ([closing] ++ rest) t ts opening.token.span
      h.2 hjoins span us hus
    have hmore : ¬ts.isEmpty = true := by
      intro hnil
      rw [List.isEmpty_iff.1 hnil] at h
      exact absurd h.1 (Nat.not_succ_le_self 1)
    rw [if_neg hmore] at ht'
    refine ⟨t'.withSpan (opening.token.span.merge closing.token.span), ht'.withSpan, ?_⟩
    rw [List.cons_append, List.append_assoc]
    refine Reading.reads_onNext hopen (hread.andThen fun _ => ?_)
    exact ((Reading.reads_expect hclose _ _).map rfl).map rfl
  | _ => exact h.elim

/-- Behind a member of a union no intersection goes on. -/
theorem joins_behind (hrest : joinsHints rest = false) {parts : List (List Written)}
    {is : List Item} (his : List.Forall₂ Item.Spells (parts.flatMap (.mark .pipe :: ·)) is) :
    joinsHints (is ++ rest) = false := by
  cases parts with
  | nil =>
    obtain rfl := List.forall₂_nil_left_iff.1 his
    exact hrest
  | cons part parts =>
    obtain ⟨pipe, us, hpipe, -, rfl⟩ := List.forall₂_cons_left_iff.1 his
    exact joinsHints_of_mark (by decide) hpipe _

/-- More members of a union are read back. -/
theorem readsBack_moreUnited {ts : List TypeHint} (h : ∀ t ∈ ts, t.IsJoined)
    (hrest : EndsHint rest) :
    ReadsBack (readMoreUnited env) ((ts.map TypeHint.words).flatMap (.mark .pipe :: ·))
      ts rest := by
  induction ts with
  | nil =>
    intro is his
    obtain rfl := List.forall₂_nil_left_iff.1 his
    refine ⟨[], Same.refl _, ?_⟩
    rw [List.nil_append, readMoreUnited]
    exact Reading.reads_onNext_no hrest.pipe (Reading.reads_done [])
  | cons t ts ih =>
    intro is his
    obtain ⟨ht, hts⟩ := List.forall_mem_cons.1 h
    rw [List.map_cons, List.flatMap_cons, List.cons_append] at his
    obtain ⟨pipe, vs, hpipe, hvs, rfl⟩ := List.forall₂_cons_left_iff.1 his
    obtain ⟨us, ws, hus, hws, rfl⟩ := exists_spells_append hvs
    have hmark : isMark .pipe pipe = true := isMark_spells hpipe
    obtain ⟨t', ht', hread⟩ :=
      @readsBack_group env (ws ++ rest) t ht (joins_behind hrest.joins hws) us hus
    obtain ⟨ts', hts', hreadMore⟩ := ih hts ws hws
    refine ⟨t' :: ts', ht'.cons hts', ?_⟩
    rw [readMoreUnited, List.cons_append, List.append_assoc]
    exact Reading.reads_onNext hmark (hread.andThen fun _ => hreadMore.map rfl)

/-- A name and a group do not begin with a question mark. -/
theorem not_question_group {t : TypeHint} (h : t.IsJoined) {is : List Item}
    (his : List.Forall₂ Item.Spells t.words is) (us : List Item) :
    (is ++ us).head?.any (isMark .question) = false := by
  cases t with
  | named name span =>
    obtain ⟨i, rfl, -, hmark, -⟩ := @exists_spells_single (.named name span) h is his
    simp [hmark]
  | intersection members span =>
    obtain ⟨opening, vs, hopening, -, rfl⟩ := List.forall₂_cons_left_iff.1 his
    simp [isMark_spells hopening]
  | _ => exact h.elim

/-- A name or an intersection alone is read back. -/
theorem readsBack_joined {t : TypeHint} (h : t.IsJoined) (hrest : EndsHint rest) :
    ReadsBack (readHint env) t.words t rest := by
  intro is his
  obtain ⟨t', ht', hread⟩ := @readsBack_group env rest t h hrest.joins is his
  have hquestion : (is ++ rest).head?.any (isMark .question) = false := not_question_group h his _
  obtain ⟨ts', hts', hreadMore⟩ := @readsBack_moreUnited env rest [] nofun hrest [] .nil
  have hnone : ts'.isEmpty = true := hts'.isEmpty_eq
  refine ⟨t', ht', Reading.reads_onNext_no hquestion ?_⟩
  exact hread.andThen fun _ => hreadMore.map (if_pos hnone)

/-- **A whole type is read back.** -/
theorem readsBack_hint {t : TypeHint} (h : t.IsWhole) (hrest : EndsHint rest) :
    ReadsBack (readHint env) t.words t rest := by
  intro is his
  cases t with
  | nullable inner span =>
    obtain ⟨question, us, hquestion, hus, rfl⟩ := List.forall₂_cons_left_iff.1 his
    have hmark : isMark .question question = true := isMark_spells hquestion
    obtain ⟨t', ht', hread⟩ := @readsBack_single env inner h rest us hus
    refine ⟨.nullable t' (question.token.span.merge t'.span), ht'.nullable, ?_⟩
    exact Reading.reads_onNext hmark (hread.map rfl)
  | union members span =>
    obtain ⟨t, ts, rfl⟩ := List.exists_cons_of_ne_nil (TypeHint.ne_nil_of_two_le h.1)
    obtain ⟨ht, hts⟩ := List.forall_mem_cons.1 h.2
    rw [TypeHint.words, TypeHint.allWords_eq, List.map_cons, Written.listed] at his
    obtain ⟨us, ws, hus, hws, rfl⟩ := exists_spells_append his
    have hquestion : (us ++ ws ++ rest).head?.any (isMark .question) = false := by
      rw [List.append_assoc]
      exact not_question_group ht hus _
    obtain ⟨t', ht', hread⟩ :=
      @readsBack_group env (ws ++ rest) t ht (joins_behind hrest.joins hws) us hus
    obtain ⟨ts', hts', hreadMore⟩ := @readsBack_moreUnited env rest ts hts hrest ws hws
    have hmore : ¬ts'.isEmpty = true := by
      rw [hts'.isEmpty_eq, List.isEmpty_iff]
      rintro rfl
      exact absurd h.1 (Nat.not_succ_le_self 1)
    refine ⟨.union (t' :: ts') (coverHints (env.current (us ++ ws ++ rest)).span (t' :: ts')),
      (ht'.cons hts').union, Reading.reads_onNext_no hquestion ?_⟩
    rw [List.append_assoc]
    exact hread.andThen fun _ => hreadMore.map (if_neg hmore)
  | named name span => exact @readsBack_joined env rest (.named name span) h hrest is his
  | intersection ms span => exact @readsBack_joined env rest (.intersection ms span) h hrest is his

end ReadsBack

end Declaration

end PhpHandbook
