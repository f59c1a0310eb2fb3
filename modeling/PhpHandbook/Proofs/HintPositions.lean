import PhpHandbook.Proofs.SingleClass

/-!
# A native type in other places

A type of a file is printed, and the printed text is put into another file: behind the parameters of
a method, in front of a property, in front of a promoted parameter.  There it is read as the same
type.

There is one exception.  Behind a visibility, an opening parenthesis with the word `set` behind it
is taken for the beginning of `(set)`, so a type that begins with a group of which the first name is
`set` is not read in front of a property.

## Main definitions

* `TypeHint.mentionsStatic`: the types that are allowed behind a method only.
* `TypeHint.beginsWithSet`: the types that look like `(set)` behind a visibility.

## Main statements

* `parse_returned`: what a method returns is read back.
* `parse_declared`: what a property and a promoted parameter are declared with is read back, or it
  begins with the word `set` in parentheses and is not read.
-/

namespace PhpHandbook

namespace Source

open Written (text)

/-- Tokens with a blank behind them. -/
def Written.spaced : List Written → List Written
  | [] => []
  | [w] => [{ w with gap := w.gap ++ [' '] }]
  | w :: v :: ws => w :: spaced (v :: ws)

theorem Written.text_spaced {ws : List Written} (hne : ws ≠ []) :
    text (spaced ws) = text ws ++ [' '] := by
  induction ws using spaced.induct with
  | case1 => exact absurd rfl hne
  | case2 w => simp [spaced, text]
  | case3 w v ws ih =>
    show w.lexeme ++ w.gap ++ text (spaced (v :: ws)) = w.lexeme ++ w.gap ++ text (v :: ws) ++ [' ']
    rw [ih (List.cons_ne_nil v ws), List.append_assoc (w.lexeme ++ w.gap)]

theorem legible_spaced {ws : List Written} {rest : List Char} (h : Legible (' ' :: rest) ws) :
    Legible rest (Written.spaced ws) := by
  induction ws using Written.spaced.induct with
  | case1 => trivial
  | case2 w =>
    obtain ⟨hscans, hgap, hapart, -⟩ := h
    refine ⟨hscans, List.forall_mem_append.2 ⟨hgap, gap_blank⟩, ?_, trivial⟩
    rw [List.append_assoc]
    exact hapart
  | case3 w v ws ih =>
    obtain ⟨hscans, hgap, hapart, hws⟩ := h
    refine ⟨hscans, hgap, ?_, ih hws⟩
    rw [Written.text_spaced (List.cons_ne_nil v ws), List.append_assoc]
    exact hapart

/-- A token with a blank behind it. -/
theorem legible_blank {kind : TokenKind} {lexeme : List Char} (hscans : Scans kind lexeme)
    (hblank : kind.goesOn ' ' = false) {rest : List Char} {ws : List Written}
    (hws : Legible rest ws) :
    Legible rest (⟨kind, lexeme, [' ']⟩ :: ws) := by
  refine ⟨hscans, gap_blank, ?_, hws⟩
  rintro d ⟨⟩
  exact hblank

/-- A bracket, a semicolon or a comma. -/
theorem legible_mark {mark : Mark} (hmark : mark.isShort)
    (hgoes : ∀ d, (TokenKind.mark mark).goesOn d = false) {gap : List Char}
    (hgap : ∀ c ∈ gap, isGap c) {rest : List Char} {ws : List Written} (hws : Legible rest ws) :
    Legible rest (.mark mark gap :: ws) :=
  ⟨scans_mark hmark, hgap, fun d _ => hgoes d, hws⟩

end Source

namespace Declaration

open Source (Written Legible Keyword TokenKind classWords)
open Source.Written (text spaced)

theorem spells_spaced {ws : List Written} {is : List Item}
    (h : List.Forall₂ Item.Spells (spaced ws) is) :
    List.Forall₂ Item.Spells ws is := by
  induction ws using Source.Written.spaced.induct generalizing is with
  | case1 => exact h
  | case2 w =>
    obtain ⟨i, is, hi, his, rfl⟩ := List.forall₂_cons_left_iff.1 h
    exact .cons ⟨hi.kind, hi.lexeme, hi.comments⟩ his
  | case3 w v ws ih =>
    obtain ⟨i, is, hi, his, rfl⟩ := List.forall₂_cons_left_iff.1 h
    exact .cons hi (ih his)

/-! ### Methods -/

section Methods

variable {env : Env} {us vs ws rest : List Item}

theorem not_isModifier {i : Item} {kind : TokenKind} (hi : i.kind = kind)
    (hkind : kind.isModifier = false) (us : List Item) :
    next (·.kind.isModifier) (i :: us) = false := by
  simp [next, hi, hkind]

/-- A member that begins with the word for it is a method. -/
theorem readMember_of_function {word : Item} (hword : word.kind = .keyword .kwFunction)
    (us : List Item) :
    ∃ doc start, readMember env (word :: us)
      = (readMethod env {} doc start (word :: us)).map .method := by
  have hmark (mark : Source.Mark) : next (isMark mark) (word :: us) = false := by
    simp [next, isMark, hword]
  have hother {k : Keyword} (hk : k ≠ .kwFunction) :
      ¬next (isKeyword k) (word :: us) = true := by
    simp [next, isKeyword, hword, hk.symm]
  have hfunction : next (isKeyword .kwFunction) (word :: us) = true := by
    simp [next, isKeyword, hword]
  rw [readMember_eq, onNext_of_not (hmark _), if_neg (hother (by decide)), skipAttributes,
    onNext_of_not (hmark _), Reading.done_andThen, readAttributed, if_neg (hother (by decide)),
    readModified_eq, readModifiers, onNext_of_not (not_isModifier hword rfl _),
    Reading.done_andThen, readDeclared, if_neg (hother (by decide)), if_pos hfunction]
  exact ⟨_, _, rfl⟩

/-- A method without modifiers is read from its parts. -/
theorem reads_method {word name : Item} (hword : word.kind = .keyword .kwFunction)
    (hname : name.kind = .name) {params : List Param}
    (hparams : (readParams env us).Reads params vs) {type : Option TypeHint}
    (htype : (readReturnHint env vs).Reads type ws) {ending : Bool × Source.Span}
    (hend : (readMethodEnd env ws).Reads ending rest) :
    ∃ f : Method, (readMember env (word :: name :: us)).Reads (.method f) rest ∧
      f.name.name = name.token.lexeme ∧ f.params = params ∧ f.returnType = type := by
  obtain ⟨doc, start, hmember⟩ := @readMember_of_function env word hword (name :: us)
  let f : Method :=
    { name := ⟨name.token.lexeme, name.token.span⟩, modifiers := {}, params, returnType := type
      returnsReference := false, hasBody := ending.1, doc, span := start.merge ending.2 }
  refine ⟨f, ?_, rfl, rfl, rfl⟩
  rw [hmember]
  refine Reading.Reads.map (a := f) ?_ rfl
  refine ((Reading.reads_expect (by simp [isKeyword, hword]) _ _).map rfl).andThen fun _ => ?_
  refine (Reading.reads_skip_no (by simp [isMark, hname])).andThen fun _ => ?_
  refine ((Reading.reads_expect (by simp [hname]) _ _).map rfl).andThen fun _ => ?_
  exact hparams.andThen fun _ => htype.andThen fun _ => hend.map rfl

end Methods

/-! ### Behind a method -/

/-- The tokens of a method that returns a type. -/
def returnWords (t : TypeHint) : List Written :=
  ⟨.keyword .kwFunction, "function".toList, [' ']⟩ :: ⟨.name, ['f'], []⟩ ::
    .mark .parenOpen ::
    .mark .parenClose :: .mark .colon [' '] :: (t.words ++ [.mark .semicolon [' ']])

theorem endsHint_of_mark {mark : Source.Mark} (hjoins : mark ≠ .ampersand)
    (hpipe : mark ≠ .pipe) {gap : List Char} {i : Item} (hi : i.Spells (.mark mark gap))
    (us : List Item) : EndsHint (i :: us) := by
  refine ⟨joinsHints_of_mark hjoins hi us, ?_⟩
  simp [next, isMark_spells hi, hpipe]

theorem legible_returnWords {t : TypeHint} (h : t.IsWhole) : Legible ['}'] (returnWords t) := by
  have hends : Source.EndsName [';', ' ', '}'] := by
    rintro c ⟨⟩
    decide
  have hname : Source.Scans .name ['f'] := by
    have hword := @Source.scans_word 'f' [] (by decide) (by simp)
    rwa [show Source.wordKind ['f'] = .name by decide +kernel] at hword
  refine Source.legible_blank (Source.scans_keyword .kwFunction) rfl ⟨hname, by simp, ?_, ?_⟩
  · rintro d ⟨⟩
    decide
  refine Source.legible_mark rfl (fun _ => rfl) (by simp)
    (Source.legible_mark rfl (fun _ => rfl) (by simp) ?_)
  refine Source.legible_blank (Source.scans_mark rfl) (by decide)
    (Source.legible_append (h.legible hends) ?_)
  exact Source.legible_mark rfl (fun _ => rfl) Source.gap_blank trivial

theorem reads_returned {env : Env} {t : TypeHint} (h : t.IsWhole) {is : List Item}
    (his : List.Forall₂ Item.Spells (returnWords t) is) (closing : Item) :
    ∃ m, (readMember env (is ++ [closing])).Reads m [closing] ∧ ∃ f u, m = .method f ∧
      f.name.name = "f" ∧ f.params = [] ∧ f.returnType = some u ∧ Same u t := by
  obtain ⟨word, _, hword, hnamed, rfl⟩ := List.forall₂_cons_left_iff.1 his
  obtain ⟨name, _, hname, hopened, rfl⟩ := List.forall₂_cons_left_iff.1 hnamed
  obtain ⟨opening, _, hopening, hclosed, rfl⟩ := List.forall₂_cons_left_iff.1 hopened
  obtain ⟨ending, _, hending, hmarked, rfl⟩ := List.forall₂_cons_left_iff.1 hclosed
  obtain ⟨colon, _, hcolon, htyped, rfl⟩ := List.forall₂_cons_left_iff.1 hmarked
  obtain ⟨hs, ends, hhs, hends, rfl⟩ := exists_spells_append htyped
  obtain ⟨semicolon, _, hsemicolon, hnil, rfl⟩ := List.forall₂_cons_left_iff.1 hends
  obtain rfl := List.forall₂_nil_left_iff.1 hnil
  have hstop : EndsHint (semicolon :: [closing]) :=
    endsHint_of_mark (by decide) (by decide) hsemicolon _
  obtain ⟨u, hu, hread⟩ := @readsBack_hint env (semicolon :: [closing]) t h hstop hs hhs
  have hclose : isMark .parenClose ending = true := isMark_spells hending
  have hparams :
      (readParams env (opening :: ending :: colon :: (hs ++ semicolon :: [closing]))).Reads []
      (colon :: (hs ++ semicolon :: [closing])) := by
    refine ((Reading.reads_expect (isMark_spells hopening) _ _).map rfl).andThen fun _ => ?_
    have hnone : (readParamList env (ending :: colon :: (hs ++ semicolon :: [closing]))).Reads []
        (ending :: colon :: (hs ++ semicolon :: [closing])) := by
      rw [readParamList, if_pos (by simp [next, hclose])]
      exact Reading.reads_done []
    exact hnone.andThen fun _ => ((Reading.reads_expect hclose _ _).map rfl).map rfl
  have hreturn : (readReturnHint env (colon :: (hs ++ semicolon :: [closing]))).Reads (some u)
      (semicolon :: [closing]) :=
    Reading.reads_onNext (isMark_spells hcolon) (hread.map rfl)
  have hend :
      (readMethodEnd env (semicolon :: [closing])).Reads (false, semicolon.token.span)
        [closing] := by
    rw [readMethodEnd, if_neg (by simp [next, isMark_spells hsemicolon])]
    exact (((Reading.reads_expect (isMark_spells hsemicolon) _ _).map rfl).mapError _).map rfl
  obtain ⟨f, hmember, hfname, hfparams, hftype⟩ :=
    reads_method hword.kind hname.kind hparams hreturn hend
  have hitems : word :: name :: opening :: ending :: colon :: (hs ++ [semicolon]) ++ [closing]
      = word :: name :: opening :: ending :: colon :: (hs ++ semicolon :: [closing]) := by simp
  rw [hitems]
  exact ⟨_, hmember, f, u, rfl, hfname.trans hname.lexeme, hfparams, hftype, hu⟩

/-- The text of an interface with a method that returns a type:
`<?php interface I { function f(): H; }`. -/
def returnText (t : TypeHint) : List Char :=
  ("<?php interface I \x7b function f(): " ++ t.text ++ "; \x7d").toList

/-- The text declares a method that returns the type. -/
def DeclaresReturn (source : List Char) (t : TypeHint) : Prop :=
  ∃ f c m u, (parse source).outcome = .ok f ∧ f.classes = [c] ∧ c.kind = .interface ∧
    c.methods = [m] ∧ m.name.name = "f" ∧ m.params = [] ∧ m.returnType = some u ∧ Same u t

theorem returnText_eq {t : TypeHint} (h : t.IsWhole) :
    returnText t = "<?php ".toList ++ text (classWords .kwInterface ['I'] (returnWords t)) := by
  rw [returnText, String.toList_append, String.toList_append, ← h.text_words]
  simp [classWords, returnWords, text, Written.text_append, Written.mark, Source.Mark.text,
    Keyword.text]

/-- **What a method returns is read back.**  The printed text of any type that occurs in a file is
read behind a method as the same type, but for places. -/
theorem parse_returned {source : List Char} {file : SourceFile}
    (hparse : (parse source).outcome = .ok file) {t : TypeHint} (ht : t ∈ file.hints) :
    DeclaresReturn (returnText t) t := by
  have hwhole := parse_hints hparse t ht
  have hname : Source.Scans .name ['I'] := by
    have hword := @Source.scans_word 'I' [] (by decide) (by simp)
    rwa [show Source.wordKind ['I'] = .name by decide +kernel] at hword
  obtain ⟨f, c, _, hf, hclasses, hkind, -, hmembers, m, u, rfl, hm⟩ :=
    @parse_singleClass .kwInterface .interface ['I'] (returnWords t) rfl (by decide)
      (Source.legible_classWords hname (legible_returnWords hwhole)) ⟨_, _, rfl, nofun⟩ _
      fun env is closing his _ => reads_returned hwhole his closing
  rw [returnText_eq hwhole]
  exact ⟨f, c, m, u, hf, hclasses, hkind, congrArg Members.methods hmembers, hm⟩

/-- `<?php interface Shelf { function all(): (Countable&\Traversable)|null; }` -/
def shelf : List Char :=
  "<?php interface Shelf \x7b function all(): (Countable&\\Traversable)|null; \x7d".toList

/-- A union of an intersection and `null` is read back. -/
theorem parse_returned_shelf : ∃ file t, (parse shelf).outcome = .ok file ∧ t ∈ file.hints ∧
    t.text = "(Countable&\\Traversable)|null" ∧ DeclaresReturn (returnText t) t := by
  have hread : (parse shelf).outcome.toOption.any
      (·.hints.any fun t => t.text == "(Countable&\\Traversable)|null") = true := by decide +kernel
  cases houtcome : (parse shelf).outcome with
  | error faults =>
    rw [houtcome] at hread
    cases hread
  | ok file =>
    rw [houtcome] at hread
    obtain ⟨t, ht, htext⟩ := List.any_eq_true.1 hread
    exact ⟨file, t, rfl, ht, beq_iff_eq.1 htext, parse_returned houtcome ht⟩

/-! ### What a type begins with -/

namespace TypeHint

/-- The name `static`. -/
def isStatic : TypeHint → Bool
  | .named name _ => sameName name.written "static"
  | _ => false

/-- **A type that mentions** `static`, which is allowed behind a method only. -/
def mentionsStatic (t : TypeHint) : Bool :=
  t.parts.any isStatic

/-- The first name in a group. -/
def groupHead? : TypeHint → Option String
  | .intersection (.named name _ :: _) _ => some name.written
  | _ => none

/-- A group of which the first name is `set`. -/
def groupsSet (t : TypeHint) : Bool :=
  t.groupHead?.any (sameName · "set")

/-- **A type that looks like `(set)`** where it begins. -/
def beginsWithSet : TypeHint → Bool
  | .union (t :: _) _ => t.groupsSet
  | t => t.groupsSet

end TypeHint

/-- A token that a type begins with, if it does not begin with `static`. -/
def StartsHint (kind : TokenKind) : Prop :=
  kind = .mark .question ∨ kind = .mark .parenOpen ∨ kind.isName = true

theorem StartsHint.ne {kind other : TokenKind} (h : StartsHint kind)
    (hquestion : other ≠ .mark .question) (hparen : other ≠ .mark .parenOpen)
    (hname : other.isName = false) : kind ≠ other := by
  rintro rfl
  rcases h with h | h | h
  · exact hquestion h
  · exact hparen h
  · rw [hname] at h
    cases h

theorem StartsHint.not_isModifier {kind : TokenKind} (h : StartsHint kind) :
    kind.isModifier = false := by
  rcases h with rfl | rfl | h
  · rfl
  · rfl
  · cases kind <;> first | rfl | cases h

theorem static_of_nameKind {s : String} (h : Source.nameKind s.toList = .keyword .kwStatic) :
    sameName s "static" = true := by
  have hword : Source.wordKind s.toList = .keyword .kwStatic := by
    unfold Source.nameKind at h
    split at h
    · cases h
    split at h
    · cases h
    · exact h
  unfold Source.wordKind at hword
  split at hword
  · next k hk =>
    cases hword
    have hfound : Keyword.kwStatic.text.toList = s.toList.map Char.toLower := by
      simpa using List.find?_some hk
    rw [sameName, beq_iff_eq, ← String.toList_inj, String.toList_map, ← hfound,
      String.toList_map]
    rfl
  · cases hword

section Front

variable {t : TypeHint} {is rest : List Item}

/-- **What the items of a type begin with**; the flag tells whether that is `(set`. -/
structure Fronts (set : Bool) (is : List Item) : Prop where
  starts : ∃ i js, is = i :: js ∧ StartsHint i.kind
  startsSet_eq : ∀ rest, startsSet (is ++ rest) = set
  /-- What looks like `(set` is not closed. -/
  unclosed : set = true → ∃ i j k js, is = i :: j :: k :: js ∧ isMark .parenClose k = false

theorem Fronts.append {set : Bool} (h : Fronts set is) (us : List Item) :
    Fronts set (is ++ us) := by
  obtain ⟨i, js, rfl, hi⟩ := h.starts
  refine ⟨⟨i, js ++ us, rfl, hi⟩, fun rest => ?_, fun hset => ?_⟩
  · rw [List.append_assoc]
    exact h.startsSet_eq _
  · obtain ⟨i', j, k, ks, his, hk⟩ := h.unclosed hset
    exact ⟨i', j, k, ks ++ us, congrArg (· ++ us) his, hk⟩

theorem fronts_joined (h : t.IsJoined) (hstatic : t.mentionsStatic = false)
    (his : List.Forall₂ Item.Spells t.words is) : Fronts t.groupsSet is := by
  cases t with
  | named name span =>
    obtain ⟨i, js, hi, hnil, rfl⟩ := List.forall₂_cons_left_iff.1 his
    obtain ⟨_, hsingle, -, hmark, -⟩ := @exists_spells_single (.named name span) h _ his
    obtain ⟨rfl, rfl⟩ := List.cons.inj hsingle
    have hname : i.kind.isName = true := by
      have hkind := (show Source.ReadsAgain name.written.toList ∧ _ from h).1.kind
      rw [Source.TokenKind.namesType, Bool.or_eq_true, beq_iff_eq] at hkind
      rw [hi.kind]
      refine hkind.resolve_right fun hkeyword => ?_
      simp [TypeHint.mentionsStatic, TypeHint.parts, TypeHint.isStatic, static_of_nameKind hkeyword]
        at hstatic
    refine ⟨⟨i, [], rfl, .inr (.inr hname)⟩, fun rest => ?_,
      fun hgroups => absurd hgroups Bool.false_ne_true⟩
    simp [startsSet, next, hmark, TypeHint.groupsSet, TypeHint.groupHead?]
  | intersection members span =>
    obtain ⟨t, ts, rfl⟩ := List.exists_cons_of_ne_nil (TypeHint.ne_nil_of_two_le h.1)
    obtain ⟨u, ts, rfl⟩ : ∃ u us, ts = u :: us := by
      cases ts with
      | nil => exact absurd h.1 (Nat.not_succ_le_self 1)
      | cons u us => exact ⟨u, us, rfl⟩
    rw [TypeHint.words, TypeHint.allWords_eq, List.map_cons, List.map_cons, Written.listed,
      List.flatMap_cons] at his
    obtain ⟨opening, vs, hopening, hvs, rfl⟩ := List.forall₂_cons_left_iff.1 his
    obtain ⟨ws, closings, hws, -, rfl⟩ := exists_spells_append hvs
    obtain ⟨xs, ys, hxs, hys, rfl⟩ := exists_spells_append hws
    obtain ⟨ampersand, zs, hampersand, -, rfl⟩ := List.forall₂_cons_left_iff.1 hys
    have ht := (List.forall_mem_cons.1 h.2).1
    obtain ⟨name, rfl, -, -, -⟩ := exists_spells_single ht hxs
    have hparen : opening.kind = .mark .parenOpen := hopening.kind
    refine ⟨⟨opening, _, rfl, .inr (.inl hparen)⟩, fun rest => ?_, fun _ =>
      ⟨opening, name, ampersand, zs ++ closings, rfl, isMark_spells hampersand⟩⟩
    cases t with
    | named written span =>
      have hname := (List.forall₂_cons.1 hxs).1.lexeme
      rw [String.ofList_toList] at hname
      simp [startsSet, next, second, isMark, hparen, hname, TypeHint.groupsSet,
        TypeHint.groupHead?]
    | _ => exact ht.elim
  | _ => exact h.elim

/-- **What a type begins with**: nothing that could be a modifier, and `(set` only if its first
group does. -/
theorem fronts_hint (h : t.IsWhole) (hstatic : t.mentionsStatic = false)
    (his : List.Forall₂ Item.Spells t.words is) : Fronts t.beginsWithSet is := by
  cases t with
  | nullable inner span =>
    obtain ⟨question, us, hquestion, -, rfl⟩ := List.forall₂_cons_left_iff.1 his
    refine ⟨⟨question, us, rfl, .inl hquestion.kind⟩, fun rest => ?_, nofun⟩
    simp [startsSet, next, isMark_spells hquestion, TypeHint.beginsWithSet, TypeHint.groupsSet,
      TypeHint.groupHead?]
  | union members span =>
    obtain ⟨t, ts, rfl⟩ := List.exists_cons_of_ne_nil (TypeHint.ne_nil_of_two_le h.1)
    rw [TypeHint.words, TypeHint.allWords_eq, List.map_cons, Written.listed] at his
    obtain ⟨us, ws, hus, -, rfl⟩ := exists_spells_append his
    refine (fronts_joined (List.forall_mem_cons.1 h.2).1 ?_ hus).append ws
    rw [TypeHint.mentionsStatic, List.any_eq_false] at hstatic ⊢
    refine fun u hu => hstatic u ?_
    rw [TypeHint.parts, TypeHint.partsOfAll_eq, List.flatMap_cons]
    exact List.mem_cons_of_mem _ (List.mem_append_left _ hu)
  | named => exact @fronts_joined (.named _ _) is h hstatic his
  | intersection => exact @fronts_joined (.intersection _ _) is h hstatic his

end Front

/-! ### Behind a visibility -/

section Visible

variable {env : Env} {α β ε : Type} {ts us vs rest : List Item}

theorem refuses_behind {t : Item} {r : Reading Item ε α us} (h : Refuses r) :
    Refuses (r.behind t) :=
  h

theorem Refuses.of_reads {r : Reading Item ε α ts} {a : α} (hr : r.Reads a us)
    {next : α → (us : List Item) → us.length ≤ ts.length → Reading Item ε β us}
    (h : ∀ le, Refuses (next a us le)) : Refuses (r.andThen next) := by
  obtain ⟨houtcome, rfl⟩ := hr
  rw [Reading.andThen_of_ok houtcome]
  exact h _

/-- What the word `public` says. -/
def publicly : Modifiers :=
  { visibility := some .isPublic }

theorem reads_public {word : Item} (hword : word.kind = .keyword .kwPublic)
    (hset : startsSet us = false) (hmore : next (·.kind.isModifier) us = false) :
    (readModifiers env {} (word :: us)).Reads publicly us := by
  have hvisibility : visibility? word.kind = some .isPublic := by rw [hword]; rfl
  rw [readModifiers]
  refine Reading.reads_onNext (by rw [hword]; rfl) ?_
  rw [hvisibility]
  have hplain : (readSet env us).Reads false us := by
    rw [readSet, if_neg (by simp [hset])]
    exact Reading.reads_done false
  exact hplain.andThen fun _ => reads_readModifiers hmore

/-- What looks like `(set` and is not closed is not read behind a visibility. -/
theorem refuses_public {word i j k : Item} (hword : word.kind = .keyword .kwPublic)
    (hset : startsSet (i :: j :: k :: us) = true) (hk : isMark .parenClose k = false) :
    Refuses (readModifiers env {} (word :: i :: j :: k :: us)) := by
  have hvisibility : visibility? word.kind = some .isPublic := by rw [hword]; rfl
  have hreadSet : Refuses (readSet env (i :: j :: k :: us)) := by
    rw [readSet, if_pos hset]
    refine Refuses.of_reads (Reading.reads_skip rfl _) fun _ => ?_
    refine Refuses.of_reads (Reading.reads_skip rfl _) fun _ => ?_
    exact ((refuses_expect (by simpa [next] using hk)).map _).map _
  rw [readModifiers, Reading.onNext, if_pos (by rw [hword]; rfl)]
  refine refuses_behind ?_
  rw [hvisibility]
  exact hreadSet.andThen _

/-- Items of a type behind the word `public`. -/
structure Typed (set : Bool) (word : Item) (is : List Item) : Prop where
  word : word.kind = .keyword .kwPublic
  fronts : Fronts set is

section Typed

variable {set : Bool} {word : Item} {is : List Item} (h : Typed set word is)
include h

theorem Typed.not_mark_word (mark : Source.Mark) (us : List Item) :
    next (isMark mark) (word :: us) = false := by
  simp [next, isMark, h.word]

theorem Typed.not_keyword_word {k : Keyword} (hk : k ≠ .kwPublic) (us : List Item) :
    ¬next (isKeyword k) (word :: us) = true := by
  simp [next, isKeyword, h.word, hk.symm]

theorem Typed.not_next {other : TokenKind} (hquestion : other ≠ .mark .question)
    (hparen : other ≠ .mark .parenOpen) (hname : other.isName = false) (us : List Item) :
    next (isKind other) (is ++ us) = false := by
  obtain ⟨i, js, rfl, hi⟩ := h.fronts.starts
  simp [next, isKind, hi.ne hquestion hparen hname]

theorem Typed.not_keyword (k : Keyword) (us : List Item) : ¬next (isKeyword k) (is ++ us) = true :=
  Bool.eq_false_iff.1 (@Typed.not_next _ _ _ h (.keyword k) nofun nofun rfl us)

theorem Typed.reads_modifiers (hset : set = false) (us : List Item) :
    (readModifiers env {} (word :: (is ++ us))).Reads publicly (is ++ us) := by
  refine reads_public h.word ((h.fronts.startsSet_eq us).trans hset) ?_
  obtain ⟨i, js, rfl, hi⟩ := h.fronts.starts
  simp [next, hi.not_isModifier]

theorem Typed.refuses_modifiers (hset : set = true) (us : List Item) :
    Refuses (readModifiers env {} (word :: (is ++ us))) := by
  have hlooks := h.fronts.startsSet_eq us
  obtain ⟨i, j, k, js, rfl, hk⟩ := h.fronts.unclosed hset
  exact refuses_public h.word (hlooks.trans hset) hk

end Typed

variable {set : Bool} {word : Item} {is : List Item}

/-- A property of a type is read from its parts. -/
theorem reads_property (h : Typed set word is) (hset : set = false) {name semicolon : Item}
    {u : TypeHint}
    (hread : (readHint env (is ++ name :: semicolon :: rest)).Reads u (name :: semicolon :: rest))
    (hname : name.kind = .variableName) (hsemicolon : semicolon.kind = .mark .semicolon) :
    ∃ p : Property, (readMember env (word :: (is ++ name :: semicolon :: rest))).Reads
      (.properties [p])
      rest ∧ p.name.name = String.ofList (name.token.lexeme.toList.dropWhile (· == '$')) ∧
      p.type = some u ∧ p.modifiers = publicly := by
  let us := is ++ name :: semicolon :: rest
  let doc := firstDoc (firstDoc (docComment? (word :: us)) (word :: us)) us
  let p : Property :=
    { name := ⟨String.ofList (name.token.lexeme.toList.dropWhile (· == '$')), name.token.span⟩
      type := some u, fallback := none, modifiers := publicly, hasHooks := false, doc
      span := word.token.span.merge name.token.span }
  have hlist : (readPropertyList env (fun name fallback hasHooks =>
        { name, type := some u, fallback, modifiers := publicly, hasHooks, doc
          span := word.token.span.merge name.span }) (name :: semicolon :: rest)).Reads
        [p] rest := by
    rw [readPropertyList]
    refine ((Reading.reads_expect (by simp [isKind, hname]) _ _).map rfl).andThen fun _ => ?_
    refine (reads_readDefault (by simp [next, isMark, hsemicolon])).andThen fun _ => ?_
    refine (reads_readHooks (by simp [next, isMark, hsemicolon])).andThen fun _ => ?_
    rw [if_neg Bool.false_ne_true]
    refine Reading.reads_onNext_no (by simp [isMark, hsemicolon]) ?_
    exact ((Reading.reads_expect (by simp [isMark, hsemicolon]) _ _).map rfl).map rfl
  refine ⟨p, ?_, rfl, rfl, rfl⟩
  rw [readMember_eq]
  refine Reading.reads_onNext_no (h.not_mark_word _ _) ?_
  rw [if_neg (h.not_keyword_word (by decide) _)]
  refine (reads_skipAttributes (h.not_mark_word _ _)).andThen fun _ => ?_
  rw [readAttributed, if_neg (h.not_keyword_word (by decide) _), readModified_eq]
  refine (h.reads_modifiers hset _).andThen fun _ => ?_
  rw [readDeclared, if_neg (h.not_keyword _ _), if_neg (h.not_keyword _ _)]
  have hvariable : next (isKind .variableName) us = false :=
    @Typed.not_next _ _ _ h .variableName (by decide) (by decide) rfl _
  refine Reading.Reads.map (a := [p]) ?_ rfl
  exact (reads_hintIf (by rw [hvariable]; rfl) hread).andThen fun _ => hlist

/-- A property is not read where its type looks like `(set`. -/
theorem refuses_property (h : Typed set word is) (hset : set = true) (us : List Item) :
    Refuses (readMember env (word :: (is ++ us))) := by
  rw [readMember_eq, onNext_of_not (h.not_mark_word _ _), if_neg (h.not_keyword_word (by decide) _)]
  refine Refuses.of_reads (reads_skipAttributes (h.not_mark_word _ _)) fun _ => ?_
  rw [readAttributed, if_neg (h.not_keyword_word (by decide) _), readModified_eq]
  exact (h.refuses_modifiers hset us).andThen _

/-- A promoted parameter of a type is read from its parts. -/
theorem reads_promoted (h : Typed set word is) (hset : set = false) {name closing : Item}
    {u : TypeHint}
    (hread : (readHint env (is ++ name :: closing :: rest)).Reads u (name :: closing :: rest))
    (hname : name.kind = .variableName) (hclosing : closing.kind = .mark .parenClose) :
    ∃ p : Param, (readParamList env (word :: (is ++ name :: closing :: rest))).Reads [p]
      (closing :: rest) ∧
        p.name.name = String.ofList (name.token.lexeme.toList.dropWhile (· == '$')) ∧
      p.type = some u ∧ p.promoted = some publicly := by
  let us := is ++ name :: closing :: rest
  let p : Param :=
    { name := ⟨String.ofList (name.token.lexeme.toList.dropWhile (· == '$')), name.token.span⟩
      type := some u, fallback := none, byRef := false, variadic := false, promoted := some publicly
      doc := firstDoc (docComment? (word :: us)) (word :: us)
      span := word.token.span.merge name.token.span }
  have huntyped : next startsUntyped us = false := by
    obtain ⟨i, js, rfl, hi⟩ := h.fronts.starts
    have hkind (kind : TokenKind) (hquestion : kind ≠ .mark .question)
        (hparen : kind ≠ .mark .parenOpen)
        (hname : kind.isName = false) : isKind kind i = false :=
      beq_eq_false_iff_ne.2 (hi.ne hquestion hparen hname)
    show (isKind .variableName i || isKind (.mark .ampersand) i ||
      isKind (.mark .ellipsis) i) = false
    rw [hkind .variableName nofun nofun rfl, hkind (.mark .ampersand) (by decide) (by decide) rfl,
      hkind (.mark .ellipsis) (by decide) (by decide) rfl]
    rfl
  have hparam : (readParam env (word :: us)).Reads p (closing :: rest) := by
    refine (reads_skipAttributes (h.not_mark_word _ _)).andThen fun _ => ?_
    refine (h.reads_modifiers hset _).andThen fun _ => ?_
    refine (reads_hintIf (by rw [huntyped]; rfl) hread).andThen fun _ => ?_
    refine (Reading.reads_skip_no (by simp [isMark, hname])).andThen fun _ => ?_
    refine (Reading.reads_skip_no (by simp [isMark, hname])).andThen fun _ => ?_
    refine ((Reading.reads_expect (by simp [isKind, hname]) _ _).map rfl).andThen fun _ => ?_
    refine (reads_readDefault (by simp [next, isMark, hclosing])).andThen fun _ => ?_
    exact (reads_readHooks (by simp [next, isMark, hclosing])).map rfl
  refine ⟨p, ?_, rfl, rfl, rfl⟩
  rw [readParamList, if_neg (by rw [h.not_mark_word]; exact Bool.false_ne_true)]
  exact hparam.andThen fun _ =>
    Reading.reads_onNext_no (by simp [isMark, hclosing]) (Reading.reads_done [p])

/-- A promoted parameter is not read where its type looks like `(set`. -/
theorem refuses_promoted (h : Typed set word is) (hset : set = true) (us : List Item) :
    Refuses (readParamList env (word :: (is ++ us))) := by
  have hparam : Refuses (readParam env (word :: (is ++ us))) := by
    refine Refuses.of_reads (reads_skipAttributes (h.not_mark_word _ _)) fun _ => ?_
    exact (h.refuses_modifiers hset us).andThen _
  rw [readParamList, if_neg (by rw [h.not_mark_word]; exact Bool.false_ne_true)]
  exact hparam.andThen _

/-- A method is not read where its parameters are not. -/
theorem refuses_method {word name opening : Item} (hword : word.kind = .keyword .kwFunction)
    (hname : name.kind = .name) (hopening : opening.kind = .mark .parenOpen)
    (hparams : Refuses (readParamList env us)) :
    Refuses (readMember env (word :: name :: opening :: us)) := by
  obtain ⟨doc, start, hmember⟩ := @readMember_of_function env word hword (name :: opening :: us)
  rw [hmember]
  refine Refuses.map (Refuses.of_reads
    ((Reading.reads_expect (by simp [isKeyword, hword]) _ _).map rfl) fun _ => ?_) _
  refine Refuses.of_reads (Reading.reads_skip_no (by simp [isMark, hname])) fun _ => ?_
  refine Refuses.of_reads ((Reading.reads_expect (by simp [hname]) _ _).map rfl) fun _ => ?_
  refine Refuses.andThen (Refuses.of_reads
    ((Reading.reads_expect (by simp [isMark, hopening]) _ _).map rfl) fun _ => ?_) _
  exact hparams.andThen _

end Visible

/-! ### In front of a variable -/

/-- The tokens of a variable that has a type and is public. -/
def publicWords (t : TypeHint) : List Written :=
  ⟨.keyword .kwPublic, "public".toList, [' ']⟩ ::
    (spaced t.words ++ [⟨.variableName, "$x".toList, []⟩])

/-- The tokens of a property. -/
def propertyWords (t : TypeHint) : List Written :=
  publicWords t ++ [.mark .semicolon [' ']]

/-- The tokens of a method with a promoted parameter. -/
def promotedWords (t : TypeHint) : List Written :=
  ⟨.keyword .kwFunction, "function".toList, [' ']⟩ :: ⟨.name, "__construct".toList, []⟩ ::
    .mark .parenOpen :: (publicWords t ++
      [.mark .parenClose [' '], .mark .braceOpen, .mark .braceClose [' ']])

section Words

variable {t : TypeHint}

theorem legible_publicWords (h : t.IsWhole) {rest : List Char}
    (hrest : ∀ d, rest.head? = some d → Source.isNamePart d = false) :
    Legible rest (publicWords t) := by
  have hends : Source.EndsName (' ' :: ("$x".toList ++ rest)) := by
    rintro c ⟨⟩
    decide
  have hvariable : Source.Scans .variableName "$x".toList :=
    @Source.scans_variable 'x' [] (by decide) (by simp)
  refine Source.legible_blank (Source.scans_keyword .kwPublic) rfl (Source.legible_append
    (Source.legible_spaced ?_) ⟨hvariable, by simp, hrest, trivial⟩)
  simpa [text] using h.legible hends

theorem legible_propertyWords (h : t.IsWhole) : Legible ['}'] (propertyWords t) := by
  refine Source.legible_append (legible_publicWords h ?_) (Source.legible_mark rfl (fun _ => rfl)
    Source.gap_blank trivial)
  rintro d ⟨⟩
  decide

theorem legible_promotedWords (h : t.IsWhole) : Legible ['}'] (promotedWords t) := by
  have hname : Source.Scans .name "__construct".toList := by
    have hword := @Source.scans_word '_' "_construct".toList (by decide)
      (List.all_eq_true.1 (by decide))
    rwa [show Source.wordKind ('_' :: "_construct".toList) = .name by decide +kernel] at hword
  have hend : Legible ['}'] [.mark .parenClose [' '], .mark .braceOpen, .mark .braceClose [' ']] :=
    Source.legible_mark rfl (fun _ => rfl) Source.gap_blank
      (Source.legible_mark rfl (fun _ => rfl) (by simp)
      (Source.legible_mark rfl (fun _ => rfl) Source.gap_blank trivial))
  refine Source.legible_blank (Source.scans_keyword .kwFunction) rfl ⟨hname, by simp, ?_, ?_⟩
  · rintro d ⟨⟩
    decide
  refine Source.legible_mark rfl (fun _ => rfl) (by simp) (Source.legible_append
    (legible_publicWords h ?_) hend)
  rintro d ⟨⟩
  decide

/-- The items of a public variable: its type is read back, or looks like `(set`. -/
theorem exists_publicItems (h : t.IsWhole) (hstatic : t.mentionsStatic = false) {is : List Item}
    (his : List.Forall₂ Item.Spells (publicWords t) is) :
    ∃ word hs name, is = word :: (hs ++ [name]) ∧ Typed t.beginsWithSet word hs ∧
      name.kind = .variableName ∧ name.token.lexeme = "$x" ∧ ∀ env rest,
        ∃ u, Same u t ∧ (readHint env (hs ++ name :: rest)).Reads u (name :: rest) := by
  obtain ⟨word, _, hword, htyped, rfl⟩ := List.forall₂_cons_left_iff.1 his
  obtain ⟨hs, names, hhs, hnames, rfl⟩ := exists_spells_append htyped
  obtain ⟨name, _, hname, hnil, rfl⟩ := List.forall₂_cons_left_iff.1 hnames
  obtain rfl := List.forall₂_nil_left_iff.1 hnil
  have hvariable : name.kind = .variableName := hname.kind
  have hhs := spells_spaced hhs
  refine ⟨word, hs, name, rfl, ⟨hword.kind, fronts_hint h hstatic hhs⟩, hvariable,
    hname.lexeme, fun env rest => readsBack_hint h ⟨?_, ?_⟩ hs hhs⟩
  · simp [joinsHints, next, isMark, hvariable]
  · simp [next, isMark, hvariable]

/-- The items of a method with a promoted parameter. -/
theorem exists_promotedItems {is : List Item}
    (his : List.Forall₂ Item.Spells (promotedWords t) is) :
    ∃ (first second opening : Item) (vs : List Item) (closing opens closes : Item),
      is = first :: second :: opening :: (vs ++ [closing, opens, closes]) ∧
      first.kind = .keyword .kwFunction ∧ second.kind = .name ∧
      second.token.lexeme = "__construct" ∧ opening.kind = .mark .parenOpen ∧
      List.Forall₂ Item.Spells (publicWords t) vs ∧ closing.kind = .mark .parenClose ∧
      opens.kind = .mark .braceOpen ∧ closes.kind = .mark .braceClose := by
  obtain ⟨first, _, hfirst, hnamed, rfl⟩ := List.forall₂_cons_left_iff.1 his
  obtain ⟨second, _, hsecond, hopened, rfl⟩ := List.forall₂_cons_left_iff.1 hnamed
  obtain ⟨opening, _, hopening, htyped, rfl⟩ := List.forall₂_cons_left_iff.1 hopened
  obtain ⟨vs, ends, hvs, hends, rfl⟩ := exists_spells_append htyped
  obtain ⟨closing, _, hclosing, hbody, rfl⟩ := List.forall₂_cons_left_iff.1 hends
  obtain ⟨opens, _, hopens, hbodyEnd, rfl⟩ := List.forall₂_cons_left_iff.1 hbody
  obtain ⟨closes, _, hcloses, hnil, rfl⟩ := List.forall₂_cons_left_iff.1 hbodyEnd
  obtain rfl := List.forall₂_nil_left_iff.1 hnil
  exact ⟨first, second, opening, vs, closing, opens, closes, rfl, hfirst.kind, hsecond.kind,
    hsecond.lexeme, hopening.kind, hvs, hclosing.kind, hopens.kind, hcloses.kind⟩

end Words

section Declared

variable {env : Env} {t : TypeHint} (h : t.IsWhole) (hstatic : t.mentionsStatic = false)
    {is : List Item}
include h hstatic

theorem reads_propertyWords (hset : t.beginsWithSet = false)
    (his : List.Forall₂ Item.Spells (propertyWords t) is) (closing : Item) :
    ∃ m, (readMember env (is ++ [closing])).Reads m [closing] ∧ ∃ p u, m = .properties [p] ∧
      p.name.name = "x" ∧ p.type = some u ∧ Same u t ∧ p.modifiers = publicly := by
  obtain ⟨vs, ends, hvs, hends, rfl⟩ := exists_spells_append his
  obtain ⟨semicolon, _, hsemicolon, hnil, rfl⟩ := List.forall₂_cons_left_iff.1 hends
  obtain rfl := List.forall₂_nil_left_iff.1 hnil
  obtain ⟨word, hs, name, rfl, htyped, hname, hlexeme, hback⟩ :=
    exists_publicItems h hstatic hvs
  obtain ⟨u, hu, hread⟩ := hback env (semicolon :: [closing])
  obtain ⟨p, hp, hpname, hptype, hpmodifiers⟩ :=
    reads_property htyped hset hread hname hsemicolon.kind
  have hitems : word :: (hs ++ [name]) ++ [semicolon] ++ [closing]
      = word :: (hs ++ name :: semicolon :: [closing]) := by simp
  rw [hitems]
  refine ⟨_, hp, p, u, rfl, hpname.trans ?_, hptype, hu, hpmodifiers⟩
  rw [hlexeme]
  decide

theorem refuses_propertyWords (hset : t.beginsWithSet = true)
    (his : List.Forall₂ Item.Spells (propertyWords t) is) (closing : Item) :
    Refuses (readMember env (is ++ [closing])) := by
  obtain ⟨vs, ends, hvs, hends, rfl⟩ := exists_spells_append his
  obtain ⟨word, hs, name, rfl, htyped, -⟩ := exists_publicItems h hstatic hvs
  have hitems : word :: (hs ++ [name]) ++ ends ++ [closing]
      = word :: (hs ++ (name :: ends ++ [closing])) := by
    simp
  rw [hitems]
  exact refuses_property htyped hset _

theorem reads_promotedWords (hset : t.beginsWithSet = false)
    (his : List.Forall₂ Item.Spells (promotedWords t) is) (last : Item) :
    ∃ m, (readMember env (is ++ [last])).Reads m [last] ∧ ∃ f p u, m = .method f ∧
      f.name.name = "__construct" ∧ f.params = [p] ∧ p.name.name = "x" ∧ p.type = some u ∧
      Same u t ∧ p.promoted = some publicly := by
  obtain ⟨first, second, opening, vs, closing, opens, closes, rfl, hfirst, hsecond,
    hconstruct, hopening, hvs, hclosing, hopens, hcloses⟩ := exists_promotedItems his
  obtain ⟨word, hs, name, rfl, htyped, hname, hlexeme, hback⟩ :=
    exists_publicItems h hstatic hvs
  let rest := opens :: closes :: [last]
  obtain ⟨u, hu, hread⟩ := hback env (closing :: rest)
  obtain ⟨p, hp, hpname, hptype, hppromoted⟩ := reads_promoted htyped hset hread hname hclosing
  have hparams :
      (readParams env (opening :: word :: (hs ++ name :: closing :: rest))).Reads [p] rest := by
    refine ((Reading.reads_expect (by simp [isMark, hopening]) _ _).map rfl).andThen fun _ => ?_
    refine hp.andThen fun _ => ?_
    exact ((Reading.reads_expect (by simp [isMark, hclosing]) _ _).map rfl).map rfl
  have hopen : isMark .braceOpen opens = true := by simp [isMark, hopens]
  have hend :
      (readMethodEnd env rest).Reads (true, opens.token.span.merge closes.token.span) [last] := by
    rw [readMethodEnd, if_pos (by simp [rest, next, hopen]), skipBlock_of_open env hopen,
      skipToClose_zero_of_close _ (by simp [isMark, hcloses]) (by simp [isMark, hcloses])]
    exact Reading.Reads.map ⟨rfl, rfl⟩ rfl
  obtain ⟨f, hf, hfname, hfparams, -⟩ := reads_method hfirst hsecond hparams
    (reads_readReturnHint (by simp [rest, next, isMark, hopens])) hend
  have hitems :
      first :: second :: opening :: (word :: (hs ++ [name]) ++ [closing, opens, closes]) ++ [last]
      = first :: second :: opening :: word :: (hs ++ name :: closing :: rest) := by simp [rest]
  rw [hitems]
  refine ⟨_, hf, f, p, u, rfl, hfname.trans hconstruct, hfparams, hpname.trans ?_, hptype, hu,
    hppromoted⟩
  rw [hlexeme]
  decide

theorem refuses_promotedWords (hset : t.beginsWithSet = true)
    (his : List.Forall₂ Item.Spells (promotedWords t) is) (last : Item) :
    Refuses (readMember env (is ++ [last])) := by
  obtain ⟨first, second, opening, vs, closing, opens, closes, rfl, hfirst, hsecond, -, hopening,
    hvs, -⟩ := exists_promotedItems his
  obtain ⟨word, hs, name, rfl, htyped, -⟩ := exists_publicItems h hstatic hvs
  have hitems :
      first :: second :: opening :: (word :: (hs ++ [name]) ++ [closing, opens, closes]) ++ [last]
      = first :: second :: opening :: word ::
      (hs ++ (name :: closing :: opens :: closes :: [last])) := by
    simp
  rw [hitems]
  exact refuses_method hfirst hsecond hopening (refuses_promoted htyped hset _)

end Declared

/-! ### In a class -/

/-- The text of a class with a public property of a type: `<?php class C { public H $x; }`. -/
def propertyText (t : TypeHint) : List Char :=
  ("<?php class C \x7b public " ++ t.text ++ " $x; \x7d").toList

/-- The text of a class with a public promoted parameter of a type:
`<?php class C { function __construct(public H $x) {} }`. -/
def promotedText (t : TypeHint) : List Char :=
  ("<?php class C \x7b function __construct(public " ++ t.text ++ " $x) \x7b\x7d \x7d").toList

theorem TypeHint.IsWhole.words_ne_nil {t : TypeHint} (h : t.IsWhole) : t.words ≠ [] := by
  have hjoined {t : TypeHint} (h : t.IsJoined) : t.words ≠ [] := by
    rintro hnil
    obtain ⟨c, cs, htext, -⟩ := h.standalone.head
    rw [hnil] at htext
    cases htext
  cases t with
  | nullable inner span => exact List.cons_ne_nil _ _
  | union members span =>
    obtain ⟨t, ts, rfl⟩ := List.exists_cons_of_ne_nil (TypeHint.ne_nil_of_two_le h.1)
    rw [TypeHint.words, TypeHint.allWords_eq, List.map_cons, Written.listed]
    exact fun hnil => hjoined (List.forall_mem_cons.1 h.2).1 (List.append_eq_nil_iff.1 hnil).1
  | named => exact @hjoined (.named _ _) h
  | intersection => exact @hjoined (.intersection _ _) h

theorem text_publicWords {t : TypeHint} (h : t.IsWhole) :
    text (publicWords t) = "public ".toList ++ t.text.toList ++ " $x".toList := by
  show "public ".toList ++ text (spaced t.words ++ [⟨.variableName, "$x".toList, []⟩]) = _
  rw [Written.text_append, Written.text_spaced h.words_ne_nil, h.text_words, List.append_assoc,
    List.append_assoc]
  rfl

theorem propertyText_eq {t : TypeHint} (h : t.IsWhole) :
    propertyText t = "<?php ".toList ++ text (classWords .kwClass ['C'] (propertyWords t)) := by
  simp [propertyText, classWords, propertyWords, text, Written.text_append, text_publicWords h,
    Written.mark, Source.Mark.text, Keyword.text]

theorem promotedText_eq {t : TypeHint} (h : t.IsWhole) :
    promotedText t = "<?php ".toList ++ text (classWords .kwClass ['C'] (promotedWords t)) := by
  simp [promotedText, classWords, promotedWords, text, Written.text_append, text_publicWords h,
    Written.mark, Source.Mark.text, Keyword.text]

theorem scans_className : Source.Scans .name ['C'] := by
  have hword := @Source.scans_word 'C' [] (by decide) (by simp)
  rwa [show Source.wordKind ['C'] = .name by decide +kernel] at hword

/-- The text declares `$x` as a property of the type, which everybody may see and write. -/
def DeclaresProperty (source : List Char) (t : TypeHint) : Prop :=
  ∃ f c p u, (parse source).outcome = .ok f ∧ f.classes = [c] ∧ c.properties = [p] ∧
    p.name.name = "x" ∧ p.type = some u ∧ Same u t ∧
    p.modifiers.visibility = some .isPublic ∧ p.modifiers.setVisibility = none

/-- The text declares `$x` as a promoted parameter of the type, which everybody may see and
write. -/
def DeclaresPromoted (source : List Char) (t : TypeHint) : Prop :=
  ∃ f c m p u modifiers, (parse source).outcome = .ok f ∧ f.classes = [c] ∧
    c.methods = [m] ∧ m.params = [p] ∧ p.name.name = "x" ∧ p.type = some u ∧ Same u t ∧
    p.promoted = some modifiers ∧ modifiers.visibility = some .isPublic ∧
    modifiers.setVisibility = none

theorem isWhole_of_returned {source : List Char} {file : SourceFile}
    (hparse : (parse source).outcome = .ok file) {c : ClassLike} (hc : c ∈ file.classes)
    {m : Method} (hm : m ∈ c.methods) {t : TypeHint} (ht : m.returnType = some t) :
    t.IsWhole := by
  have hreturned : t ∈ c.hints := by
    refine List.mem_append_right _ (List.mem_append_right _ (List.mem_flatMap.2 ⟨m, hm, ?_⟩))
    exact List.mem_append_right _ (Option.mem_toList.2 ht)
  refine parse_hints hparse t
    (List.mem_flatMap.2 ⟨t, List.mem_flatMap.2 ⟨c, hc, hreturned⟩, ?_⟩)
  cases t <;> simp [TypeHint.parts]

section InClass

variable {t : TypeHint} (h : t.IsWhole) (hstatic : t.mentionsStatic = false)
include h hstatic

theorem declaresProperty (hset : t.beginsWithSet = false) :
    DeclaresProperty (propertyText t) t := by
  obtain ⟨f, c, _, hf, hclasses, -, -, hmembers, p, u, rfl, hname, htype, hu, hmodifiers⟩ :=
    @parse_singleClass .kwClass _ _ _ rfl (by decide)
      (Source.legible_classWords scans_className (legible_propertyWords h)) ⟨_, _, rfl, nofun⟩ _
      fun env is closing his _ => reads_propertyWords h hstatic hset his closing
  rw [propertyText_eq h]
  exact ⟨f, c, p, u, hf, hclasses, congrArg Members.properties hmembers, hname, htype, hu,
    congrArg Modifiers.visibility hmodifiers, congrArg Modifiers.setVisibility hmodifiers⟩

theorem declaresPromoted (hset : t.beginsWithSet = false) :
    DeclaresPromoted (promotedText t) t := by
  obtain ⟨f, c, _, hf, hclasses, -, -, hmembers, m, p, u, rfl, -, hparams, hname, htype, hu,
    hmodifiers⟩ :=
    @parse_singleClass .kwClass _ _ _ rfl (by decide)
      (Source.legible_classWords scans_className (legible_promotedWords h)) ⟨_, _, rfl, nofun⟩ _
      fun env is closing his _ => reads_promotedWords h hstatic hset his closing
  rw [promotedText_eq h]
  exact ⟨f, c, m, p, u, publicly, hf, hclasses, congrArg Members.methods hmembers, hparams,
    hname, htype, hu, hmodifiers, rfl, rfl⟩

/-- A type that looks like `(set` leaves both texts without declarations. -/
theorem not_parse_of_beginsWithSet (hset : t.beginsWithSet = true) (f : SourceFile) :
    (parse (propertyText t)).outcome ≠ .ok f ∧ (parse (promotedText t)).outcome ≠ .ok f := by
  rw [propertyText_eq h, promotedText_eq h]
  refine ⟨?_, ?_⟩
  · exact @not_parse_singleClass .kwClass _ _ _ rfl (by decide)
      (Source.legible_classWords scans_className (legible_propertyWords h)) ⟨_, _, rfl, nofun⟩
      (fun env is closing his _ => refuses_propertyWords h hstatic hset his closing) f
  · exact @not_parse_singleClass .kwClass _ _ _ rfl (by decide)
      (Source.legible_classWords scans_className (legible_promotedWords h)) ⟨_, _, rfl, nofun⟩
      (fun env is closing his _ => refuses_promotedWords h hstatic hset his closing) f

end InClass

/-- **What a property and a promoted parameter are declared with.**  The printed text of a type that
a method returns, and that does not mention `static`, is read as the same type in front of a
property and of a promoted parameter, unless it looks like `(set` there; then nothing is
declared. -/
theorem parse_declared {source : List Char} {file : SourceFile}
    (hparse : (parse source).outcome = .ok file) {c : ClassLike} (hc : c ∈ file.classes)
    {m : Method} (hm : m ∈ c.methods) {t : TypeHint} (ht : m.returnType = some t)
    (hstatic : t.mentionsStatic = false) :
    (t.beginsWithSet = false ∧ DeclaresProperty (propertyText t) t ∧
      DeclaresPromoted (promotedText t) t) ∨
      (t.beginsWithSet = true ∧
        ∀ f, (parse (propertyText t)).outcome ≠ .ok f ∧
          (parse (promotedText t)).outcome ≠ .ok f) := by
  have hwhole := isWhole_of_returned hparse hc hm ht
  cases hset : t.beginsWithSet with
  | false =>
    exact .inl ⟨rfl, declaresProperty hwhole hstatic hset, declaresPromoted hwhole hstatic hset⟩
  | true => exact .inr ⟨rfl, not_parse_of_beginsWithSet hwhole hstatic hset⟩

/-- A text in which a method returns a type of which something holds. -/
theorem exists_returned {source : List Char} {p : TypeHint → Bool}
    (h : (parse source).outcome.toOption.any
      (·.classes.any (·.methods.any (·.returnType.any p))) = true) :
    ∃ file, (parse source).outcome = .ok file ∧
      ∃ c ∈ file.classes, ∃ m ∈ c.methods, ∃ t, m.returnType = some t ∧ p t = true := by
  cases houtcome : (parse source).outcome with
  | error faults =>
    rw [houtcome] at h
    cases h
  | ok file =>
    rw [houtcome] at h
    obtain ⟨c, hc, h⟩ := List.any_eq_true.1 h
    obtain ⟨m, hm, h⟩ := List.any_eq_true.1 h
    obtain ⟨t, ht, h⟩ := (Option.any_eq_true _ _).1 h
    exact ⟨file, rfl, c, hc, m, hm, t, ht, h⟩

/-- A union with a group is declared in both places. -/
theorem parse_declared_shelf : ∃ file, (parse shelf).outcome = .ok file ∧
    ∃ c ∈ file.classes, ∃ m ∈ c.methods, ∃ t, m.returnType = some t ∧
    t.mentionsStatic = false ∧
      DeclaresProperty (propertyText t) t ∧ DeclaresPromoted (promotedText t) t := by
  obtain ⟨file, hfile, c, hc, m, hm, t, ht, hp⟩ := @exists_returned shelf
    (fun t => !t.mentionsStatic && !t.beginsWithSet) (by decide +kernel)
  obtain ⟨hstatic, hset⟩ : t.mentionsStatic = false ∧ t.beginsWithSet = false := by
    simpa using hp
  refine ⟨file, hfile, c, hc, m, hm, t, ht, hstatic, ?_⟩
  rcases parse_declared hfile hc hm ht hstatic with ⟨-, hdeclares⟩ | ⟨hlooks, -⟩
  · exact hdeclares
  · rw [hset] at hlooks
    cases hlooks

/-- `<?php interface Shelf { function all(): (Set&Countable); }` -/
def setShelf : List Char :=
  "<?php interface Shelf \x7b function all(): (Set&Countable); \x7d".toList

/-- An intersection of which the first name is `Set` is declared in neither place. -/
theorem not_declared_setShelf : ∃ file, (parse setShelf).outcome = .ok file ∧
    ∃ c ∈ file.classes, ∃ m ∈ c.methods, ∃ t, m.returnType = some t ∧
    t.mentionsStatic = false ∧
      ¬DeclaresProperty (propertyText t) t ∧ ¬DeclaresPromoted (promotedText t) t := by
  obtain ⟨file, hfile, c, hc, m, hm, t, ht, hp⟩ := @exists_returned setShelf
    (fun t => !t.mentionsStatic && t.groupHead? == some "Set") (by decide +kernel)
  obtain ⟨hstatic, hhead⟩ : t.mentionsStatic = false ∧ t.groupHead? = some "Set" := by
    simpa using hp
  have hset : t.beginsWithSet = true := by
    have hgroup : t.groupsSet = true := by
      rw [TypeHint.groupsSet, hhead, Option.any_some, sameName, beq_iff_eq, ← String.toList_inj,
        String.toList_map, String.toList_map]
      decide
    cases t with
    | union => cases hhead
    | _ => exact hgroup
  have hnot := not_parse_of_beginsWithSet (isWhole_of_returned hfile hc hm ht) hstatic hset
  refine ⟨file, hfile, c, hc, m, hm, t, ht, hstatic, ?_, ?_⟩
  · rintro ⟨f, c, p, u, hf, -⟩
    exact (hnot f).1 hf
  · rintro ⟨f, c, m, p, u, modifiers, hf, -⟩
    exact (hnot f).2 hf

end Declaration

end PhpHandbook
