import PhpHandbook.Proofs.CloseTags
import PhpHandbook.Proofs.HeredocOpenings
import PhpHandbook.Text.Split

/-!
# Where heredocs end

Behind its opening a heredoc is read line by line.  It ends at the first later line that starts with
its label, behind blanks and in front of no further letter, digit or underscore; and if there is no
such line, it takes the rest of the text and a fault is recorded.

The reader goes over characters and looks at a line wherever a newline stands.  `Ends` says the same
of the lines of the text, and the induction over characters carries it: another character makes the
first line longer, and a newline puts an empty line in front.

## Main definitions

* `MayClose`: the lines that a heredoc may end with.
* `Ends`: what belongs to a heredoc, by the lines behind its opening.

## Main statements

* `Stands.exists_items`: where the walk stands, its steps and their faults go on.
* `errors_at`: the faults that are recorded at a token are its own.
* `exists_ends`: the reader of a heredoc finds its end.
* `heredoc_ends_at_label`: every heredoc ends at the first line that may close it.
-/

namespace PhpHandbook

namespace Text

/-- The first part of a text reaches to the first separator. -/
theorem exists_splitChars (separator : Char) (cs : List Char) :
    ∃ parts, splitChars separator cs = cs.takeWhile (· != separator) :: parts := by
  induction cs with
  | nil => exact ⟨[], rfl⟩
  | cons c cs ih =>
    obtain ⟨parts, hparts⟩ := ih
    rw [splitChars, hparts]
    by_cases hc : c = separator
    · exact ⟨_, by rw [if_pos hc, List.takeWhile_cons_of_neg (by simpa using hc)]⟩
    · exact ⟨parts, by rw [if_neg hc, List.takeWhile_cons_of_pos (by simpa using hc)]⟩

theorem splitChars_separator (separator : Char) (cs : List Char) :
    splitChars separator (separator :: cs) = [] :: splitChars separator cs := by
  rw [splitChars, if_pos rfl]

theorem splitChars_of_ne {separator c : Char} (hc : c ≠ separator) {cs first : List Char}
    {parts : List (List Char)} (h : splitChars separator cs = first :: parts) :
    splitChars separator (c :: cs) = (c :: first) :: parts := by
  rw [splitChars, if_neg hc, h]

end Text

namespace Source

open Text (run splitChars isBlank dropBlank)

/-! ### Faults at a place -/

/-- The walk begins behind a gap, with the token that starts there. -/
theorem exists_gap_of_walk {mode : Mode} {offset : Nat} {cs : List Char}
    {item : Token × Option LexFault} {items : List (Token × Option LexFault)}
    (h : walk mode offset cs = item :: items) :
    ∃ gap rest, cs = gap ++ rest ∧ item.1.span.start = offset + byteLength gap ∧
      walk mode offset cs = walk mode (offset + byteLength gap) rest := by
  obtain ⟨gap, rest, rfl, hgap, hhtml, hitem⟩ := walk_eq_cons h
  refine ⟨gap, rest, rfl, ?_, ?_⟩
  · rcases hitem with ⟨-, hitem, -⟩ | ⟨_, _, _, _, _, _, -, -, hitem, -⟩
    · rw [hitem]
      rfl
    · rw [hitem]
      rfl
  · cases mode with
    | html =>
      obtain rfl := hhtml rfl
      rfl
    | php => exact walk_gap hgap offset rest

/-- Two cuts of a text at one offset are the same. -/
theorem append_inj_of_byteLength_eq {cs ds cs' ds' : List Char} (h : cs ++ ds = cs' ++ ds')
    (hlength : byteLength cs = byteLength cs') : cs = cs' ∧ ds = ds' := by
  obtain ⟨es, rfl, rfl⟩ := exists_append_of_byteLength_le h hlength.le
  have hnil : es = [] := by
    by_contra hne
    have hpos := byteLength_pos hne
    rw [byteLength_append] at hlength
    omega
  rw [hnil]
  exact ⟨(List.append_nil cs).symm, rfl⟩

/-- **Where the walk stands, its steps go on**, those with faults included. -/
theorem Stands.exists_items {mode : Mode} {passed rest : List Char} {before : List Token}
    (h : Stands mode passed rest before) : ∃ items, items.map (·.1) = before ∧
      walk .html 0 (passed ++ rest) = items ++ walk mode (byteLength passed) rest := by
  obtain ⟨items, items', hwalk, hbefore, hafter⟩ := List.map_eq_append_iff.1 h.tokens_eq
  obtain ⟨item, more, hmore⟩ :=
    List.exists_cons_of_ne_nil (walk_ne_nil mode (byteLength passed) rest)
  obtain ⟨item', more', rfl⟩ : ∃ item' more', items' = item' :: more' := by
    refine List.exists_cons_of_ne_nil fun hnil => ?_
    rw [hnil, hmore] at hafter
    cases hafter
  obtain ⟨passed', rest', htext, hitems⟩ := exists_walk_of_append hwalk (List.cons_ne_nil _ _)
  rw [hbefore, h.mode_eq, Nat.zero_add] at hitems
  refine ⟨items, hbefore, ?_⟩
  rw [hwalk, hitems]
  -- both walks begin with the same token, so they are behind the same gap there
  obtain ⟨gap, behind, rfl, hstart, hgo⟩ := exists_gap_of_walk hmore
  obtain ⟨gap', behind', rfl, hstart', hgo'⟩ := exists_gap_of_walk hitems.symm
  have hsame : item'.1 = item.1 := by
    rw [hmore, List.map_cons, List.map_cons] at hafter
    exact (List.cons.inj hafter).1
  rw [hsame, hstart, ← byteLength_append, ← byteLength_append] at hstart'
  rw [← List.append_assoc, ← List.append_assoc] at htext
  obtain ⟨-, rfl⟩ := append_inj_of_byteLength_eq htext hstart'
  rw [hgo, hgo', ← byteLength_append, ← byteLength_append, hstart']

/-- **The faults that are recorded at a token are its own.** -/
theorem errors_at {text : List Char} {items items' : List (Token × Option LexFault)} {t : Token}
    {fault : Option LexFault} (h : walk .html 0 text = items ++ (t, fault) :: items')
    (hkind : t.kind ≠ .eof) :
    (tokenize text).errors.filter (·.span == t.span)
      = (fault.map (LexError.mk · t.span)).toList := by
  have htokens : (tokenize text).tokens = items.map (·.1) ++ t :: items'.map (·.1) := by
    rw [tokenize, h, List.map_append, List.map_cons]
  have hne := tokens_nonempty (htokens ▸ List.mem_append_right _ List.mem_cons_self) hkind
  have hbefore : ∀ e ∈ items.filterMap fun item => item.2.map (LexError.mk · item.1.span),
      ¬(e.span == t.span) = true := by
    intro e he hspan
    obtain ⟨u, hu, hue⟩ := exists_of_mem_errors he
    obtain ⟨front, back, hsplit⟩ := List.append_of_mem (List.mem_map_of_mem (f := (·.1)) hu)
    rw [hsplit, List.append_assoc, List.cons_append] at htokens
    have hle := tokens_ordered htokens (List.mem_append_right _ List.mem_cons_self)
    rw [hue, beq_iff_eq.1 hspan] at hle
    omega
  have hafter : ∀ e ∈ items'.filterMap fun item => item.2.map (LexError.mk · item.1.span),
      ¬(e.span == t.span) = true := by
    intro e he hspan
    obtain ⟨u, hu, hue⟩ := exists_of_mem_errors he
    have hle := tokens_ordered htokens (List.mem_map_of_mem (f := (·.1)) hu)
    rw [hue, beq_iff_eq.1 hspan] at hle
    omega
  rw [tokenize, h, List.filterMap_append, List.filter_append, List.filter_eq_nil_iff.2 hbefore,
    List.nil_append, List.filterMap_cons]
  cases fault with
  | none => exact List.filter_eq_nil_iff.2 hafter
  | some fault =>
    show List.filter _ (LexError.mk fault t.span :: _) = _
    rw [List.filter_cons_of_pos (by exact beq_self_eq_true t.span), List.filter_eq_nil_iff.2 hafter]
    rfl

/-! ### Lines that may close -/

/-- **A line that may close** a heredoc: behind its leading blanks it starts with the label, and no
letter, digit or underscore follows there. -/
def MayClose (label line : List Char) : Prop :=
  ∃ more, dropBlank line = label ++ more ∧
    ∀ c ∈ more.head?, Text.isAlphanumeric c = false ∧ c ≠ '_'

theorem IsLabel.newline_notMem {label : List Char} (h : IsLabel label) : '\n' ∉ label :=
  fun hmem => absurd (h.forall_mem _ hmem) (by decide)

/-- A text is cut behind its first line. -/
theorem exists_line (cs : List Char) : ∃ tail, cs = cs.takeWhile (· != '\n') ++ tail ∧
    ∀ c ∈ tail.head?, c = '\n' := by
  refine ⟨cs.dropWhile (· != '\n'), List.takeWhile_append_dropWhile.symm, fun c hc => ?_⟩
  have hhead := List.head?_dropWhile_not (· != '\n') cs
  rw [hc] at hhead
  simpa using hhead

/-- What stands behind a line does not matter for the label in front of it. -/
theorem startsWith_append_iff {label rest tail : List Char} (hlabel : '\n' ∉ label)
    (htail : ∀ c ∈ tail.head?, c = '\n') :
    (label.isPrefixOf (rest ++ tail) && !((rest ++ tail).drop label.length).head?.any
        (fun c => Text.isAlphanumeric c || c == '_')) = true ↔
      ∃ more, rest = label ++ more ∧ ∀ c ∈ more.head?, Text.isAlphanumeric c = false ∧
      c ≠ '_' := by
  have hnewline : Text.isAlphanumeric '\n' = false ∧ '\n' ≠ '_' := by decide +kernel
  rw [Bool.and_eq_true, List.isPrefixOf_iff_prefix]
  constructor
  · rintro ⟨⟨after, hafter⟩, hfree⟩
    rcases List.append_eq_append_iff.1 hafter with ⟨more, rfl, rfl⟩ | ⟨more, rfl, rfl⟩
    · refine ⟨more, rfl, fun c hc => ?_⟩
      obtain ⟨cs, rfl⟩ := List.head?_eq_some_iff.1 hc
      rw [List.append_assoc, List.drop_left] at hfree
      simpa using hfree
    · cases more with
      | nil => exact ⟨[], by simp, nofun⟩
      | cons c more =>
        obtain rfl := htail c rfl
        exact absurd (List.mem_append_right _ List.mem_cons_self) hlabel
  · rintro ⟨more, rfl, hmore⟩
    rw [List.append_assoc, List.drop_left]
    refine ⟨List.prefix_append _ _, ?_⟩
    cases more with
    | cons c more => simpa using hmore c rfl
    | nil =>
      cases tail with
      | nil => rfl
      | cons c tail =>
        obtain rfl := htail c rfl
        simpa using hnewline

theorem takeWhile_append_dropBlank (cs : List Char) : cs.takeWhile isBlank ++ dropBlank cs = cs :=
  List.takeWhile_append_dropWhile

/-- **A line is looked at** up to its newline. -/
theorem closingLine?_eq_some_iff {label : List Char} (hlabel : '\n' ∉ label)
    (cs : List Char) (n : Nat) :
    closingLine? label cs = some n ↔ MayClose label (cs.takeWhile (· != '\n')) ∧
      n = ((cs.takeWhile (· != '\n')).takeWhile isBlank ++ label).length := by
  obtain ⟨tail, hcs, htail⟩ := exists_line cs
  -- the blanks in front lie on the line
  have hrun : cs.takeWhile (fun c => isBlank c && c != '\n')
      = (cs.takeWhile (· != '\n')).takeWhile isBlank := by
    rw [List.takeWhile_takeWhile]
    congr 1
    funext c
    rw [Bool.decide_and, Bool.decide_eq_true, Bool.decide_eq_true]
  generalize cs.takeWhile (· != '\n') = line at *
  have hdrop : cs.drop (line.takeWhile isBlank).length = dropBlank line ++ tail := by
    have hblanks : line.takeWhile isBlank ++ (dropBlank line ++ tail) = cs := by
      rw [← List.append_assoc, takeWhile_append_dropBlank, hcs]
    rw [← hblanks, List.drop_left]
  simp only [closingLine?, run, hrun, hdrop]
  rw [MayClose, ← startsWith_append_iff hlabel htail, List.length_append]
  split_ifs with h
  · exact ⟨fun hn => ⟨h, (Option.some.inj hn).symm⟩, fun hn => congrArg some hn.2.symm⟩
  · exact ⟨fun hn => hn.elim, fun hn => absurd hn.1 h⟩

/-! ### The end of a heredoc -/

/-- **Where a heredoc ends**, given the text behind its opening: which part of this belongs to it,
and what is wrong with it. -/
inductive Ends (label rest : List Char) : List Char → Option LexFault → Prop where
  /-- Behind the line of the opening, `line` is the first that may close: the heredoc ends with the
  label in it. -/
  | closed {first line : List Char} {skipped more : List (List Char)}
      (hlines : splitChars '\n' rest = first :: (skipped ++ line :: more))
      (hskipped : ∀ l ∈ skipped, ¬MayClose label l) (hline : MayClose label line) :
      Ends label rest (['\n'].intercalate (first :: (skipped ++ [line.takeWhile isBlank ++ label])))
        none
  /-- No line may close: the heredoc takes all that is left. -/
  | unclosed {first : List Char} {lines : List (List Char)}
      (hlines : splitChars '\n' rest = first :: lines)
      (hnone : ∀ line ∈ lines, ¬MayClose label line) :
      Ends label rest rest (some (.unterminatedHeredoc (String.ofList label)))

variable {label : List Char}

theorem intercalate_cons_first (c : Char) (first : List Char) (lines : List (List Char)) :
    ['\n'].intercalate ((c :: first) :: lines) = c :: ['\n'].intercalate (first :: lines) := by
  cases lines <;> simp [List.intercalate_cons_cons]

/-- One more character on the line of the opening. -/
theorem Ends.cons {cs body : List Char} {fault : Option LexFault} (h : Ends label cs body fault)
    {c : Char} (hc : c ≠ '\n') : Ends label (c :: cs) (c :: body) fault := by
  cases h with
  | closed hlines hskipped hline =>
    rw [← intercalate_cons_first]
    exact .closed (Text.splitChars_of_ne hc hlines) hskipped hline
  | unclosed hlines hnone => exact .unclosed (Text.splitChars_of_ne hc hlines) hnone

/-- One more line behind the opening, which may not close. -/
theorem Ends.newline {cs body : List Char} {fault : Option LexFault} (h : Ends label cs body fault)
    (hfirst : ¬MayClose label (cs.takeWhile (· != '\n'))) :
    Ends label ('\n' :: cs) ('\n' :: body) fault := by
  obtain ⟨parts, hparts⟩ := Text.exists_splitChars '\n' cs
  cases h with
  | @closed first line skipped more hlines hskipped hline =>
    obtain rfl : first = cs.takeWhile (· != '\n') := by
      rw [hlines] at hparts
      exact (List.cons.inj hparts).1
    have hlines' : splitChars '\n' ('\n' :: cs)
        = [] :: ((cs.takeWhile (· != '\n') :: skipped) ++ line :: more) := by
      rw [Text.splitChars_separator, hlines, List.cons_append]
    have hclosed := Ends.closed hlines' (List.forall_mem_cons.2 ⟨hfirst, hskipped⟩) hline
    rwa [List.cons_append, List.intercalate_cons_cons] at hclosed
  | unclosed hlines hnone =>
    rw [hlines] at hparts
    cases hparts
    refine .unclosed (Text.splitChars_separator '\n' cs) ?_
    rw [hlines]
    exact List.forall_mem_cons.2 ⟨hfirst, hnone⟩

/-- The line behind the opening may close. -/
theorem Ends.next {cs : List Char} (h : MayClose label (cs.takeWhile (· != '\n'))) :
    Ends label ('\n' :: cs)
      ('\n' :: ((cs.takeWhile (· != '\n')).takeWhile isBlank ++ label)) none := by
  obtain ⟨parts, hparts⟩ := Text.exists_splitChars '\n' cs
  have hlines :
      splitChars '\n' ('\n' :: cs) = [] :: ([] ++ cs.takeWhile (· != '\n') :: parts) := by
    rw [Text.splitChars_separator, hparts, List.nil_append]
  have hclosed := Ends.closed hlines nofun h
  rwa [List.nil_append, List.intercalate_cons_cons, List.intercalate_singleton] at hclosed

/-- **The reader of a heredoc finds its end.** -/
theorem exists_ends (hlabel : '\n' ∉ label) (seen : Nat) (cs : List Char) :
    ∃ body behind fault, cs = body ++ behind ∧ Ends label cs body fault ∧
      heredocBody? label seen cs = if fault.isNone then some (seen + body.length) else none := by
  induction cs generalizing seen with
  | nil => exact ⟨[], [], _, rfl, @Ends.unclosed label [] [] [] rfl nofun, rfl⟩
  | cons c cs ih =>
    obtain ⟨body, behind, fault, hcs, hends, hbody⟩ := ih (seen + 1)
    have hlength : seen + 1 + body.length = seen + (c :: body).length := by
      rw [List.length_cons]
      omega
    rw [heredocBody?]
    by_cases hc : c = '\n'
    · subst hc
      rw [if_pos rfl]
      cases hline : closingLine? label cs with
      | none =>
        have hfirst : ¬MayClose label (cs.takeWhile (· != '\n')) := fun hmay => by
          rw [(closingLine?_eq_some_iff hlabel cs _).2 ⟨hmay, rfl⟩] at hline
          cases hline
        refine ⟨'\n' :: body, behind, fault, congrArg _ hcs, hends.newline hfirst, ?_⟩
        rw [← hlength]
        exact hbody
      | some n =>
        obtain ⟨hmay, rfl⟩ := (closingLine?_eq_some_iff hlabel cs n).1 hline
        obtain ⟨more, hmore, -⟩ := id hmay
        obtain ⟨tail, htail, -⟩ := exists_line cs
        refine ⟨_, more ++ tail, none, ?_, .next hmay, ?_⟩
        · have hline := takeWhile_append_dropBlank (cs.takeWhile (· != '\n'))
          rw [hmore] at hline
          rw [List.cons_append, List.append_assoc, ← List.append_assoc label,
            ← List.append_assoc, hline, ← htail]
        · rw [List.length_cons]
          exact congrArg some (by omega)
    · refine ⟨c :: body, behind, fault, congrArg _ hcs, hends.cons hc, ?_⟩
      rw [if_neg hc, ← hlength, hbody]

/-! ### Heredocs in a text -/

/-- The step at the opening of a heredoc. -/
theorem phpPiece_of_ends {c : Char} {cs rest body : List Char} {fault : Option LexFault}
    (h : munch c (cs ++ rest) = .heredoc label cs.length) (hends : Ends label rest body fault)
    (hbody : heredocBody? label 0 rest = if fault.isNone then some (0 + body.length) else none) :
    phpPiece c (cs ++ rest)
      = { kind := .heredoc, tail := (cs ++ body).length, mode := .php, fault } := by
  rw [phpPiece, h]
  dsimp only
  rw [List.drop_left, hbody]
  cases hends with
  | closed =>
    rw [Option.isNone_none, if_pos rfl, Nat.zero_add]
    dsimp only
    simp only [List.length_append]
  | unclosed => rw [Option.isNone_some, if_neg Bool.false_ne_true]

variable {passed gap opening rest : List Char} {before : List Token}

/-- **Every heredoc ends at the first line that may close it.**  Let the walk stand inside the tags
in front of a gap and a text that opens a heredoc with a label.  The opening carries that label, the
next token is the heredoc, and the walk goes on behind it.  It ends as `Ends` says: with the label
on the first later line that starts with it behind blanks, where no letter, digit or underscore
follows, or else with the text.  Both its ends lie between characters.  In the first case no fault
is recorded for it, in the second one fault, which names the label. -/
theorem heredoc_ends_at_label (h : Stands .php passed (gap ++ (opening ++ rest)) before)
    (hgap : ∀ c ∈ gap, isGap c) (hopens : Opens label opening rest) :
    IsLabel label ∧ IsOpening label opening ∧
      ∃ body behind fault, rest = body ++ behind ∧ Ends label rest body fault ∧
        ∃ t : Token, t.kind = .heredoc ∧ t.lexeme = String.ofList (opening ++ body) ∧
          t.span = ⟨byteLength (passed ++ gap),
            byteLength (passed ++ gap ++ (opening ++ body))⟩ ∧
          Stands .php (passed ++ gap ++ (opening ++ body)) behind (before ++ [t]) ∧
          (tokenize (passed ++ (gap ++ (opening ++ rest)))).errors.filter (·.span == t.span)
            = (fault.map (LexError.mk · t.span)).toList := by
  obtain ⟨hlabel, hopening⟩ := hopens.isOpening
  obtain ⟨body, behind, fault, rfl, hends, hbody⟩ := exists_ends hlabel.newline_notMem 0 rest
  obtain ⟨c, cs, rfl, hmunch⟩ := hopens
  have hpiece := phpPiece_of_ends hmunch hends hbody
  have hc : isGap c = false := by
    obtain ⟨-, -, rfl, -⟩ := munch_eq_heredoc hmunch
    decide
  have htake : (cs ++ (body ++ behind)).take (cs ++ body).length = cs ++ body := by
    rw [← List.append_assoc, List.take_left]
  have hdrop : (cs ++ (body ++ behind)).drop (cs ++ body).length = behind := by
    rw [← List.append_assoc, List.drop_left]
  refine ⟨hlabel, hopening, body, behind, fault, rfl, hends,
    tokenAt .heredoc (byteLength (passed ++ gap)) (c :: (cs ++ body)), rfl, rfl, ?_, ?_, ?_⟩
  · rw [byteLength_append (passed ++ gap)]
    rfl
  · rw [List.cons_append] at h
    have hnext := h.next hgap hc hpiece
    dsimp only at hnext
    rwa [htake, hdrop, List.take_zero, List.append_nil, Nat.add_zero, hdrop] at hnext
  · obtain ⟨items, -, hwalk⟩ := h.exists_items
    rw [walk_gap hgap, List.cons_append, walk, if_neg (by simp [hc]), piece, hpiece] at hwalk
    dsimp only at hwalk
    rw [htake, ← byteLength_append] at hwalk
    exact errors_at hwalk (show TokenKind.heredoc ≠ .eof by decide)

/-- A longer word in front of the label does not close, and what follows the label is read as
code. -/
theorem heredoc_passes_longer_word :
    Stands .php "<?php ".toList "<<<EOT\nEOTX\n EOT;".toList
      [tokenAt .openTag 0 "<?php ".toList] ∧
      Opens "EOT".toList "<<<EOT".toList "\nEOTX\n EOT;".toList ∧
      ∃ t : Token, t.kind = .heredoc ∧ t.lexeme = "<<<EOT\nEOTX\n EOT" ∧
        (tokenize "<?php <<<EOT\nEOTX\n EOT;".toList).errors.filter (·.span == t.span) = [] := by
  have hstands : Stands .php "<?php ".toList ([] ++ ("<<<EOT".toList ++ "\nEOTX\n EOT;".toList))
      [tokenAt .openTag 0 "<?php ".toList] := ⟨rfl, by decide +kernel⟩
  have hopens : Opens "EOT".toList "<<<EOT".toList "\nEOTX\n EOT;".toList :=
    ⟨'<', "<<EOT".toList, rfl, rfl⟩
  obtain ⟨-, -, body, behind, fault, hrest, hends, t, hkind, hlexeme, -, hafter, herrors⟩ :=
    heredoc_ends_at_label hstands nofun hopens
  -- the heredoc is the second token
  have ht : (tokenize "<?php <<<EOT\nEOTX\n EOT;".toList).tokens[1]? = some t := by
    have htokens := hafter.tokens_eq
    rw [List.append_assoc, List.append_assoc "<<<EOT".toList, ← hrest] at htokens
    exact congrArg (·[1]?) htokens
  have hsecond : (tokenize "<?php <<<EOT\nEOTX\n EOT;".toList).tokens[1]?
      = some (tokenAt .heredoc 6 "<<<EOT\nEOTX\n EOT".toList) := by decide +kernel
  obtain rfl : t = tokenAt .heredoc 6 "<<<EOT\nEOTX\n EOT".toList :=
    Option.some.inj (ht.symm.trans hsecond)
  cases hends with
  | closed => exact ⟨hstands, hopens, _, hkind, rfl, herrors⟩
  | unclosed => exact absurd hlexeme (by decide +kernel)

end Source

end PhpHandbook
