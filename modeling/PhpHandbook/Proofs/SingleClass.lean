import PhpHandbook.Proofs.BodyEdits
import PhpHandbook.Proofs.PrintedHints

/-!
# Texts with one class

A class that is written out with a single member, and nothing else in the text.  What its text is
read as comes down to what the member is read as: if the member is read, the text declares that
class, and if the member is not read, the text declares nothing.

## Main definitions

* `classWords`: the tokens of a class with one member.

## Main statements

* `parse_singleClass`: the text declares the class with the member that is read.
* `not_parse_singleClass`: a member that is not read is reported.
-/

namespace PhpHandbook

namespace Source

/-- **A class that is written out**, with the tokens between its braces. -/
def classWords (word : Keyword) (name : List Char) (member : List Written) : List Written :=
  ⟨.keyword word, word.text.toList, [' ']⟩ :: ⟨.name, name, [' ']⟩ ::
    .mark .braceOpen [' '] ::
    (member ++ [.mark .braceClose])

/-- Keywords are words. -/
theorem scans_keyword (word : Keyword) : Scans (.keyword word) word.text.toList := by
  have hall : ∀ k ∈ Keyword.all, wordKind k.text.toList = .keyword k := by decide +kernel
  have hkind : wordKind word.text.toList = .keyword word := hall word (by cases word <;> decide)
  obtain ⟨c, cs, htext, hc, hcs⟩ : ∃ c cs, word.text.toList = c :: cs ∧
      isNameStart c = true ∧
      ∀ d ∈ cs, isNamePart d = true := by
    cases word <;> exact ⟨_, _, rfl, by decide, List.all_eq_true.1 (by decide)⟩
  rw [← hkind, htext]
  exact scans_word hc hcs

theorem gap_blank : ∀ c ∈ [' '], isGap c :=
  List.forall_mem_singleton.2 rfl

/-- A class that is written out is told apart when its name and its member are. -/
theorem legible_classWords {word : Keyword} {name : List Char} {member : List Written}
    (hname : Scans .name name) (hmember : Legible ['}'] member) :
    Legible [] (classWords word name member) := by
  refine ⟨scans_keyword word, gap_blank, ?_, hname, gap_blank, ?_, scans_mark rfl, gap_blank,
    fun _ _ => rfl, ?_⟩
  · rintro d ⟨⟩
    rfl
  · rintro d ⟨⟩
    rfl
  · exact legible_append hmember ⟨scans_mark rfl, nofun, fun _ _ => rfl, trivial⟩

end Source

theorem Reading.Reads.mapError {τ ε ε' α : Type} {ts rest : List τ}
    {s : Reading τ ε α ts} {a : α} (h : s.Reads a rest) (f : ε → ε') :
    (s.mapError f).Reads a rest :=
  ⟨Reading.outcome_mapError_eq_ok_iff.2 h.1, (Reading.rest_mapError f s).trans h.2⟩

namespace Declaration

open Source (Written Legible Keyword TokenKind classWords)
open Source.Written (text)

/-! ### What is not there -/

section Absent

variable {env : Env} {ts : List Item}

/-- Branching where something else stands. -/
theorem onNext_of_not {ε α : Type} {p : Item → Bool} (h : next p ts = false)
    (yes : Item → (us : List Item) → us.length < ts.length → Reading Item ε α us)
    (no : Reading Item ε α ts) : Reading.onNext p ts yes no = no := by
  cases ts with
  | nil => rfl
  | cons t us => exact if_neg (by simpa [next] using h)

theorem reads_skipAttributes (h : next (isMark .attributeOpen) ts = false) :
    (skipAttributes ts).Reads () ts := by
  rw [skipAttributes]
  exact Reading.reads_onNext_no h (Reading.reads_done ())

theorem reads_readModifiers {m : Modifiers} (h : next (·.kind.isModifier) ts = false) :
    (readModifiers env m ts).Reads m ts := by
  rw [readModifiers]
  exact Reading.reads_onNext_no h (Reading.reads_done m)

theorem reads_readNamesAfter {word : Keyword} (h : next (isKeyword word) ts = false) :
    (readNamesAfter env word ts).Reads [] ts :=
  Reading.reads_onNext_no h (Reading.reads_done [])

theorem reads_readDefault {stops : Item → Bool} (h : next (isMark .equals) ts = false) :
    (readDefault env stops ts).Reads none ts :=
  Reading.reads_onNext_no h (Reading.reads_done none)

theorem reads_hintIf {wanted : Bool} (hwanted : wanted = true) {u : TypeHint} {us : List Item}
    (h : (readHint env ts).Reads u us) : (readHintIf env wanted ts).Reads (some u) us := by
  rw [readHintIf, if_pos hwanted]
  exact h.map rfl

theorem reads_readHooks (h : next (isMark .braceOpen) ts = false) :
    (readHooks env ts).Reads false ts := by
  rw [readHooks, if_neg (by simp [h])]
  exact Reading.reads_done false

theorem reads_readReturnHint (h : next (isMark .colon) ts = false) :
    (readReturnHint env ts).Reads none ts :=
  Reading.reads_onNext_no h (Reading.reads_done none)

end Absent

/-! ### Classes -/

section SingleClass

variable {env : Env} {word : Keyword} {kind : ClassKind}

/-- A word that announces a class is no other word. -/
theorem kind_ne_of_classKind (hkind : classKind? (.keyword word) = some kind) {t : Item}
    (ht : t.kind = .keyword word) {other : TokenKind} (hother : classKind? other = none) :
    t.kind ≠ other := by
  rintro rfl
  rw [ht, hkind] at hother
  cases hother

theorem reads_readClassModifiers (hkind : classKind? (.keyword word) = some kind) {t : Item}
    (ht : t.kind = .keyword word) (us : List Item) :
    (readClassModifiers {} (t :: us)).Reads {} (t :: us) := by
  rw [readClassModifiers]
  split
  · next hk => exact absurd hk (kind_ne_of_classKind hkind ht rfl)
  · next hk => exact absurd hk (kind_ne_of_classKind hkind ht rfl)
  · next hk => exact absurd hk (kind_ne_of_classKind hkind ht rfl)
  · exact Reading.reads_done _

/-- The first two tokens of a class that is written out. -/
structure Announces (word : Keyword) (name : List Char) (first second : Item) : Prop where
  word : first.Spells ⟨.keyword word, word.text.toList, [' ']⟩
  name : second.Spells ⟨.name, name, [' ']⟩

variable {name : List Char} {first second : Item}

/-- The head of a class that is written out. -/
theorem reads_header (hkind : classKind? (.keyword word) = some kind) (hne : kind ≠ .enum)
    (h : Announces word name first second) {opening : Item}
    (hopening : opening.Spells (.mark .braceOpen [' '])) (us : List Item) :
    ∃ header : ClassLike, (readHeader env (first :: second :: opening :: us)).Reads header us ∧
      header.kind = kind ∧ header.name.name = String.ofList name := by
  have hword : first.kind = .keyword word := h.word.kind
  have hname : second.kind = .name := h.name.kind
  have hopen : opening.kind = .mark .braceOpen := hopening.kind
  let ts := first :: second :: opening :: us
  refine ⟨{ kind, name := ⟨second.token.lexeme, second.token.span⟩, modifiers := {},
            parents := [], implements := [], backingType := none, span := first.token.span,
            doc := firstDoc (firstDoc (docComment? ts) ts) ts }, ?_, rfl, h.name.lexeme⟩
  refine (reads_skipAttributes (by simp [next, isMark, hword])).andThen fun _ => ?_
  refine (reads_readClassModifiers hkind hword _).andThen fun _ => ?_
  refine Reading.Reads.andThen (a := kind)
    ((Reading.reads_expect (by rw [hword, hkind]; rfl) _ _).map
    (by rw [hword, hkind]; rfl)) fun _ => ?_
  refine ((Reading.reads_expect (by simp [isKind, hname]) _ _).map rfl).andThen fun _ => ?_
  rw [if_neg hne]
  refine (Reading.reads_done none).andThen fun _ => ?_
  refine (reads_readNamesAfter (by simp [next, isKeyword, hopen])).andThen fun _ => ?_
  refine (reads_readNamesAfter (by simp [next, isKeyword, hopen])).andThen fun _ => ?_
  exact ((Reading.reads_expect (by simp [isMark, hopen]) _ _).map rfl).map rfl

/-- A statement that begins like a class is read as one. -/
theorem statementsRound_class (hkind : classKind? (.keyword word) = some kind)
    (h : Announces word name first second) (d : Draft) (us : List Item) :
    statementsRound env (d, true) (first :: second :: us) =
      match readClass env (first :: second :: us) with
      | ⟨.ok (c, faults), vs, _⟩ => .again ((d.addFaults faults).addClass c, true) vs id
      | ⟨.error faults, vs, _⟩ =>
        .again (d.addFaults faults, true) (resumeStatement vs).rest id := by
  have hword : first.kind = .keyword word := h.word.kind
  have hname : second.kind = .name := h.name.kind
  have hother (other : Keyword) (hother : classKind? (.keyword other) = none) :
      isKeyword other first = false :=
    beq_eq_false_iff_ne.2 (kind_ne_of_classKind hkind hword hother)
  have hahead : (true && classAhead 0 (first :: second :: us)) = true := by
    simp [classAhead, hother .kwAbstract rfl, hother .kwFinal rfl, hother .kwReadonly rfl,
      isMark, hword, hkind, next, isKind, hname]
  have hsep : ¬separates first = true := by simp [separates, isKind, isMark, hword]
  have hns : ¬(true && namespaceAhead (first :: second :: us)) = true := by
    simp [namespaceAhead, next, hother .kwNamespace rfl]
  have huse : ¬(true && isKeyword .kwUse first) = true := by simp [hother .kwUse rfl]
  rw [statementsRound, if_neg hsep, if_neg hns, if_neg huse, if_pos hahead]
  rcases readClass env (first :: second :: us) with ⟨_ | _, _, _⟩
  · rfl
  · rfl

/-- A body with one member. -/
theorem readBody_single {ts rest : List Item} {m : Member} (hts : ¬atBodyEnd ts = true)
    (hread : (readMember env ts).Reads m rest) (hrest : atBodyEnd rest = true) :
    (readBody env {} ts).Reads (Members.add {} m, []) rest := by
  obtain ⟨houtcome, rfl⟩ := hread
  rw [readBody_of_ok env {} hts (Reading.eq_of_outcome houtcome), readBody_of_end env _ hrest]
  exact ⟨rfl, rfl⟩

/-- **A class with one member** declares what the member is read as. -/
theorem reads_class (hkind : classKind? (.keyword word) = some kind) (hne : kind ≠ .enum)
    (h : Announces word name first second) {opening closing : Item}
    (hopening : opening.Spells (.mark .braceOpen [' '])) (hclosing : isMark .braceClose closing)
    {ts : List Item} {m : Member} (hts : ¬atBodyEnd ts = true)
    (hread : (readMember env ts).Reads m [closing]) :
    ∃ c, (readClass env (first :: second :: opening :: ts)).Reads (c, []) [] ∧ c.kind = kind ∧
      c.name.name = String.ofList name ∧ c.toMembers = Members.add {} m := by
  have hend : atBodyEnd [closing] = true := by simp [atBodyEnd, next, hclosing]
  obtain ⟨header, hheader, hheaderKind, hheaderName⟩ :=
    @reads_header env word kind name first second hkind hne h opening hopening ts
  refine ⟨{ header with
      toMembers := Members.add {} m, span := header.span.merge closing.token.span }, ?_,
    hheaderKind, hheaderName, rfl⟩
  refine (hheader.mapError _).andThen fun _ => ?_
  refine ((readBody_single hts hread hend).mapError _).andThen fun _ => ?_
  exact (((Reading.reads_expect hclosing _ _).map rfl).mapError _).map rfl

/-- A class with a member that is not read is not read without faults. -/
theorem readClass_refused (hkind : classKind? (.keyword word) = some kind) (hne : kind ≠ .enum)
    (h : Announces word name first second) {opening : Item}
    (hopening : opening.Spells (.mark .braceOpen [' '])) {ts : List Item}
    (hts : ¬atBodyEnd ts = true) (hrefuses : Refuses (readMember env ts)) :
    (readClass env (first :: second :: opening :: ts)).Yields fun a => a.2 ≠ [] := by
  obtain ⟨header, ⟨hheader, hrest⟩, -⟩ :=
    @reads_header env word kind name first second hkind hne h opening hopening ts
  intro a ha
  rw [readClass_of_ok env (Reading.eq_of_outcome hheader), Reading.outcome_widen, hrest] at ha
  cases hbody : (readBody env {} ts).outcome with
  | error fault =>
    rw [readClassRest, Reading.eq_of_outcome hbody] at ha
    cases ha
  | ok b =>
    obtain ⟨ms, faults⟩ := b
    cases hm : (readMember env ts).outcome with
    | ok m => exact absurd hm (hrefuses m)
    | error fault =>
      have hfaults := readBody_gives_fault env {} hts hm (ms, faults) hbody
      rw [readClassRest_of_ok env header (Reading.eq_of_outcome hbody), Reading.outcome_widen,
        Reading.outcome_map_eq_ok_iff] at ha
      obtain ⟨closing, -, rfl⟩ := ha
      exact hfaults

end SingleClass

/-! ### Texts -/

section Texts

variable {word : Keyword} {kind : ClassKind} {name : List Char} {member : List Written}

/-- Tokens that **begin a member**: there is one, and it does not close the body. -/
def BeginsMember (member : List Written) : Prop :=
  ∃ w ws, member = w :: ws ∧ w.kind ≠ .mark .braceClose

theorem BeginsMember.not_atBodyEnd (h : BeginsMember member) {is : List Item}
    (his : List.Forall₂ Item.Spells member is) (rest : List Item) :
    ¬atBodyEnd (is ++ rest) = true := by
  obtain ⟨w, ws, rfl, hw⟩ := h
  obtain ⟨i, is, hi, -, rfl⟩ := List.forall₂_cons_left_iff.1 his
  simp [atBodyEnd, next, isMark, hi.kind, hw]

/-- The items of a text with one class, and what they are read as. -/
theorem exists_classItems (hlegible : Legible [] (classWords word name member)) :
    ∃ env start span first second opening is closing,
      Announces word name first second ∧ opening.Spells (.mark .braceOpen [' ']) ∧
      List.Forall₂ Item.Spells member is ∧ isMark .braceClose closing = true ∧
      Ordered (first :: second :: opening :: (is ++ [closing])) ∧
      (parse ("<?php ".toList ++ text (classWords word name member))).outcome =
        let d := readStatements env { current := { name := none, span := start } } true
          (first :: second :: opening :: (is ++ [closing]))
        if d.faults.isEmpty then .ok { blocks := d.blocks, span } else .error d.faults := by
  obtain ⟨tag, items, eof, hitems, htag, hspells⟩ := exists_items_written hlegible
  obtain ⟨first, _, hfirst, hnamed, rfl⟩ := List.forall₂_cons_left_iff.1 hspells
  obtain ⟨second, _, hsecond, hbraced, rfl⟩ := List.forall₂_cons_left_iff.1 hnamed
  obtain ⟨opening, _, hopening, hbody, rfl⟩ := List.forall₂_cons_left_iff.1 hbraced
  obtain ⟨is, closings, his, hclosings, rfl⟩ := exists_spells_append hbody
  obtain ⟨closing, _, hclosing, hnil, rfl⟩ := List.forall₂_cons_left_iff.1 hclosings
  obtain rfl := List.forall₂_nil_left_iff.1 hnil
  have hordered := (ordered_of_tokenize hitems).suffix (List.suffix_cons tag _)
  have hseparates : separates tag = true := by simp [separates, isKind, htag]
  let source := "<?php ".toList ++ text (classWords word name member)
  refine ⟨⟨source, eof⟩, tag.token.span, ⟨tag.token.span.start, eof.span.stop⟩, first,
    second, opening, is, closing, ⟨hfirst, hsecond⟩, hopening, his, isMark_spells hclosing,
    hordered, ?_⟩
  have hskip (d : Draft) (us : List Item) :
      readStatements ⟨source, eof⟩ d true (tag :: us)
        = readStatements ⟨source, eof⟩ d true us := by
    rw [readStatements, if_pos hseparates]
  rw [parse_outcome_of_items hitems]
  dsimp only
  rw [hskip]
  rfl

/-- **A text with one class** declares the class with what its member is read as. -/
theorem parse_singleClass (hkind : classKind? (.keyword word) = some kind) (hne : kind ≠ .enum)
    (hlegible : Legible [] (classWords word name member)) (hbegins : BeginsMember member)
    {P : Member → Prop}
    (hread : ∀ env is closing, List.Forall₂ Item.Spells member is →
      isMark .braceClose closing = true →
      ∃ m, (readMember env (is ++ [closing])).Reads m [closing] ∧ P m) :
    ∃ file c m,
      (parse ("<?php ".toList ++ text (classWords word name member))).outcome = .ok file ∧
      file.classes = [c] ∧ c.kind = kind ∧ c.name.name = String.ofList name ∧
      c.toMembers = Members.add {} m ∧ P m := by
  obtain ⟨env, start, span, first, second, opening, is, closing, hannounces, hopening, his,
    hclosing, -, houtcome⟩ := exists_classItems hlegible
  obtain ⟨m, hm, hP⟩ := hread env is closing his hclosing
  obtain ⟨c, ⟨hclass, hrest⟩, hckind, hcname, hmembers⟩ :=
    reads_class hkind hne hannounces hopening
    hclosing (hbegins.not_atBodyEnd his _) hm
  let d : Draft := { current := { name := none, span := start } }
  have hround : statementsRound env (d, true) (first :: second :: opening :: (is ++ [closing]))
      = .again ((d.addFaults []).addClass c, true) [] id := by
    rw [statementsRound_class hkind hannounces, Reading.eq_of_outcome hclass]
    exact congrArg (Round.again _ · id) hrest
  have hdraft := (readStatements_of_again hround).2.2
  rw [readStatements] at hdraft
  rw [hdraft] at houtcome
  refine ⟨_, c, m, houtcome, ?_, hckind, hcname, hmembers, hP⟩
  exact Draft.flatMap_blocks _

/-- **A member that is not read** is reported, and nothing is declared. -/
theorem not_parse_singleClass (hkind : classKind? (.keyword word) = some kind)
    (hne : kind ≠ .enum) (hlegible : Legible [] (classWords word name member))
    (hbegins : BeginsMember member)
    (hrefuses : ∀ env is closing, List.Forall₂ Item.Spells member is →
      isMark .braceClose closing = true →
      Refuses (readMember env (is ++ [closing]))) (file : SourceFile) :
    (parse ("<?php ".toList ++ text (classWords word name member))).outcome ≠ .ok file := by
  obtain ⟨env, start, span, first, second, opening, is, closing, hannounces, hopening,
    his, hclosing, hordered, houtcome⟩ := exists_classItems hlegible
  have hfaulty := readClass_refused hkind hne hannounces hopening (hbegins.not_atBodyEnd his _)
    (hrefuses env is closing his hclosing)
  have hround := @statementsRound_class env word kind name first second hkind hannounces
    { current := { name := none, span := start } } (opening :: (is ++ [closing]))
  -- whether the class is read or not, there are faults, and they stay
  have hfaults : ∃ d fresh us, Ordered us ∧ d.faults ≠ [] ∧
      statementsRound env ({ current := { name := none, span := start } }, true)
        (first :: second :: opening :: (is ++ [closing])) = .again (d, fresh) us id := by
    rcases hclass : readClass env (first :: second :: opening :: (is ++ [closing])) with
      ⟨faults | ⟨c, faults⟩, us, suffix⟩
    · rw [hclass] at hround
      refine ⟨_, _, _, hordered.suffix ((resumeStatement us).suffix.trans suffix), ?_, hround⟩
      simpa [Draft.addFaults] using readClass_faults_ne_nil env _ (by rw [hclass])
    · rw [hclass] at hround
      refine ⟨_, _, _, hordered.suffix suffix, ?_, hround⟩
      simpa [Draft.addFaults, Draft.addClass] using hfaulty.of_eq hclass
  obtain ⟨d, fresh, us, hus, hne, hround⟩ := hfaults
  have hdraft := (readStatements_of_again hround).2.2
  have hkept : (readStatements env d fresh us).faults ≠ [] :=
    mt (readStatements_adds env d fresh hus).2 hne
  rw [houtcome, hdraft]
  simp [id, hkept]

end Texts

end Declaration

end PhpHandbook
