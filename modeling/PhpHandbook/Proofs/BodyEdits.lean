import PhpHandbook.Proofs.FollowingFiles
import PhpHandbook.Proofs.TokensBeside

/-!
# Bodies do not matter

Two texts that differ only between the braces of some bodies of methods declare the same.  Such a
pair of texts is an edit: parts that are tokens of both texts, with the text in front of them, and
parts that are blocks of both texts, whose content differs.

Comments and classes within a body, attributes and tags, all of that is passed over with the body.
One thing is not: looking ahead for a class, the reader searches the end of an attribute in all that
follows.  Where an attribute is never closed, it finds the brackets in bodies too.  So these have to
be balanced as well.

## Main definitions

* `Edit`: a text in two versions.
* `Edit.OfBodies`: the blocks that differ are bodies of methods.

## Main statements

* `Edit.exists_aligned`: the items of both versions stand side by side.
* `parse_of_bodies_edited`: both versions declare the same.
* `parse_of_stray_bracket`: they need not when only braces are balanced.
-/

namespace PhpHandbook.Declaration

open Source (Span Token TokenKind byteLength tokenAt)

/-! ### Texts in two versions -/

/-- The two versions of a text. -/
inductive Version where
  | old
  | new

/-- What stands between the braces of a block. -/
structure Content where
  text : List Char
  tokens : List Token

/-- A part of a text in two versions. -/
inductive Part where
  /-- A token that both versions have, with the text in front of it. -/
  | token (gap : List Char) (kind : TokenKind) (lexeme : List Char)
  /-- A block that both versions have, with the text in front of it. -/
  | block (gap : List Char) (old new : Content)

namespace Part

/-- The content of a block in one version. -/
def pick (old new : Content) : Version → Content
  | .old => old
  | .new => new

/-- The text of a part in one version. -/
def text (v : Version) : Part → List Char
  | .token gap _ lexeme => gap ++ lexeme
  | .block gap old new => gap ++ ['\x7b'] ++ ((pick old new v).text ++ ['\x7d'])

/-- The opening brace of a block, where the text in front of it starts at an offset. -/
def opening (o : Nat) (gap : List Char) : Token :=
  tokenAt (.mark .braceOpen) (o + byteLength gap) ['\x7b']

/-- The closing brace of a block. -/
def closing (o : Nat) (gap : List Char) (content : Content) : Token :=
  tokenAt (.mark .braceClose) (o + byteLength (gap ++ ['\x7b'] ++ content.text)) ['\x7d']

/-- The tokens of a part in one version, where its text starts at an offset. -/
def tokens (v : Version) (o : Nat) : Part → List Token
  | .token gap kind lexeme => [tokenAt kind (o + byteLength gap) lexeme]
  | .block gap old new =>
    opening o gap :: ((pick old new v).tokens ++ [closing o gap (pick old new v)])

/-- The contents of a block in both versions. -/
def contents : Part → List Content
  | .token .. => []
  | .block _ old new => [old, new]

end Part

/-- The text of some parts in one version. -/
def partsText (v : Version) (ps : List Part) : List Char :=
  ps.flatMap (Part.text v)

/-- The tokens of some parts in one version, where their text starts at an offset. -/
def partsTokens (v : Version) : Nat → List Part → List Token
  | _, [] => []
  | o, p :: ps => p.tokens v o ++ partsTokens v (o + byteLength (p.text v)) ps

/-- Where the blocks among some parts stop in the old version. -/
def partsStops : Nat → List Part → List Nat
  | _, [] => []
  | o, p :: ps =>
    let stop := o + byteLength (p.text .old)
    match p with
    | .token .. => partsStops stop ps
    | .block .. => stop :: partsStops stop ps

/-- **A text in two versions**, which differ only between the braces of some blocks. -/
structure Edit where
  parts : List Part
  /-- The text behind the last token. -/
  tail : List Char

namespace Edit

/-- The text of one version. -/
def text (e : Edit) (v : Version) : List Char :=
  partsText v e.parts ++ e.tail

/-- The tokens of one version. -/
def tokens (e : Edit) (v : Version) : List Token :=
  partsTokens v 0 e.parts ++ [tokenAt .eof (byteLength (e.text v)) []]

/-- Where the blocks that may differ stop in the old version. -/
def stops (e : Edit) : List Nat :=
  partsStops 0 e.parts

/-- What stands in these blocks in both versions. -/
def contents (e : Edit) : List Content :=
  e.parts.flatMap Part.contents

/-- **An edit of the bodies of methods** of the file that the old version declares: both versions
have the tokens of the edit, what stands in the blocks has the given property, and each of the
blocks is the body of a method. -/
structure OfBodies (e : Edit) (fits : List TokenKind → Prop) (f : SourceFile) : Prop where
  tokens : ∀ v, (Source.tokenize (e.text v)).tokens = e.tokens v
  contents : ∀ c ∈ e.contents, fits (c.tokens.map (·.kind))
  bodies : ∀ stop ∈ e.stops, stop ∈ f.bodyStops

end Edit

/-! ### Comments within blocks -/

theorem countBrackets_filter {opens closes : TokenKind → Bool}
    (hopens : ∀ k, k.isTrivia → ¬opens k)
    (hcloses : ∀ k, k.isTrivia → ¬closes k) (n : Nat) (ks : List TokenKind) :
    countBrackets opens closes n (ks.filter (!·.isTrivia)) = countBrackets opens closes n ks := by
  induction ks generalizing n with
  | nil => rfl
  | cons k ks ih =>
    by_cases htrivia : k.isTrivia = true
    · rw [List.filter_cons_of_neg (by simp [htrivia]),
        countBrackets_of_other n (hopens k htrivia) (hcloses k htrivia), ih]
    · rw [List.filter_cons_of_pos (by simp [htrivia])]
      by_cases hopen : opens k = true
      · rw [countBrackets_of_open n hopen, countBrackets_of_open n hopen, ih]
      · by_cases hclose : closes k = true
        · cases n with
          | zero =>
            rw [countBrackets_zero_of_close hopen hclose, countBrackets_zero_of_close hopen hclose]
          | succ n =>
            rw [countBrackets_succ_of_close n hopen hclose,
              countBrackets_succ_of_close n hopen hclose, ih]
        · rw [countBrackets_of_other n hopen hclose, countBrackets_of_other n hopen hclose, ih]

/-- Comments are no brackets. -/
theorem BracketsBalanced.filter {ks : List TokenKind} (h : BracketsBalanced ks) :
    BracketsBalanced (ks.filter (!·.isTrivia)) := by
  have hnone (mark : Source.Mark) : ¬(TokenKind.mark mark).isTrivia = true := nofun
  refine ⟨?_, ?_⟩
  · refine (countBrackets_filter (fun k hk hopen => ?_) (fun k hk hclose => ?_) 0 ks).trans
      h.braces
    · obtain rfl : k = .mark .braceOpen := by simpa [opensBlock] using hopen
      exact hnone _ hk
    · obtain rfl : k = .mark .braceClose := by simpa [closesBlock] using hclose
      exact hnone _ hk
  · refine (countBrackets_filter (fun k hk hopen => ?_) (fun k hk hclose => ?_) 0 ks).trans
      h.squares
    · obtain rfl | rfl : k = .mark .attributeOpen ∨ k = .mark .bracketOpen := by
        simpa [opensSquare] using hopen
      · exact hnone _ hk
      · exact hnone _ hk
    · obtain rfl : k = .mark .bracketClose := by simpa [closesSquare] using hclose
      exact hnone _ hk

/-! ### The items of both versions -/

theorem Part.closing_stop (o : Nat) (gap : List Char) (content : Content) :
    (closing o gap content).span.stop
      = o + byteLength (gap ++ ['\x7b'] ++ (content.text ++ ['\x7d'])) := by
  simp only [closing, tokenAt, Source.byteLength_append, Nat.add_assoc]

/-- **The parts of an edit stand side by side.** -/
theorem beside_parts {ps : List Part} {tail : List Char} {eof₁ eof₂ : Token}
    (h₁ : eof₁.kind = .eof) (h₂ : eof₂.kind = .eof)
    (hfits : ∀ c ∈ ps.flatMap Part.contents, BracketsBalanced (c.tokens.map (·.kind)))
    (o₁ o₂ : Nat) :
    Beside (partsStops o₁ ps) ⟨o₁, partsText .old ps ++ tail,
      partsTokens .old o₁ ps ++ [eof₁]⟩ eof₁
      ⟨o₂, partsText .new ps ++ tail, partsTokens .new o₂ ps ++ [eof₂]⟩ eof₂ := by
  induction ps generalizing o₁ o₂ with
  | nil => exact beside_eof o₁ o₂ tail tail h₁ h₂
  | cons p ps ih =>
    rw [List.flatMap_cons] at hfits
    have hps := ih fun c hc => hfits c (List.mem_append_right _ hc)
    cases p with
    | token gap kind lexeme =>
      have hmore := ((hps (o₁ + byteLength gap + byteLength lexeme)
        (o₂ + byteLength gap + byteLength lexeme)).token kind lexeme).gap gap
      simpa only [partsStops, partsText, partsTokens, Part.text, Part.tokens, List.flatMap_cons,
        List.append_assoc, List.cons_append, List.nil_append, Source.byteLength_append,
        Nat.add_assoc] using hmore
    | block gap old new =>
      have hold := hfits old (List.mem_append_left _ List.mem_cons_self)
      have hnew := hfits new (List.mem_append_left _ (List.mem_cons_of_mem _ List.mem_cons_self))
      have hstop (o : Nat) (x : List Char) : o + byteLength (gap ++ ['\x7b'] ++ x)
          = o + byteLength gap + byteLength (['\x7b'] ++ x) := by
        rw [List.append_assoc, Source.byteLength_append, Nat.add_assoc]
      have hmore := hps (o₁ + byteLength ((Part.block gap old new).text .old))
        (o₂ + byteLength ((Part.block gap old new).text .new))
      rw [Part.text, Part.text, hstop, hstop] at hmore
      have hblock := (hmore.block hold.filter hnew.filter
        (rfl : (Part.closing o₁ gap old).kind = .mark .braceClose)
        (rfl : (Part.closing o₂ gap new).kind = .mark .braceClose)).gap gap
      rw [Part.closing_stop, ← hstop, ← hstop] at hblock
      simpa only [partsStops, partsText, partsTokens, Part.text, Part.tokens,
        Part.opening, Part.pick, List.flatMap_cons, List.append_assoc, List.cons_append,
          List.nil_append] using hblock

/-! ### Bodies do not matter -/

/-- The end of the file in one version. -/
def Edit.eof (e : Edit) (v : Version) : Token :=
  tokenAt .eof (byteLength (e.text v)) []

/-- What does not change while one version is read. -/
def Edit.env (e : Edit) (v : Version) : Env :=
  ⟨e.text v, e.eof v⟩

/-- **The items of both versions of an edit stand side by side.** -/
theorem Edit.exists_aligned {e : Edit}
    (htokens : ∀ v, (Source.tokenize (e.text v)).tokens = e.tokens v)
    (hfits : ∀ c ∈ e.contents, BracketsBalanced (c.tokens.map (·.kind))) :
    ∃ us₁ us₂ last₁ last₂,
      attachComments [] (Source.tokenize (e.text .old)).tokens
        = us₁ ++ [⟨last₁, e.eof .old⟩] ∧
      attachComments [] (Source.tokenize (e.text .new)).tokens
        = us₂ ++ [⟨last₂, e.eof .new⟩] ∧
      Aligned (e.env .old) (e.env .new) e.stops us₁ us₂ := by
  have hbeside := @beside_parts e.parts e.tail (e.eof .old) (e.eof .new) rfl rfl hfits 0 0
  refine Beside.exists_aligned ?_
  rw [htokens .old, htokens .new]
  exact hbeside

theorem Draft.mem_bodyStops_of_blocks {d : Draft} {e : Nat}
    (h : e ∈ d.blocks.flatMap NamespaceBlock.bodyStops) : e ∈ d.bodyStops := by
  obtain ⟨b, hb, he⟩ := List.mem_flatMap.1 h
  exact List.mem_flatMap.2 ⟨b, (List.mem_filter.1 hb).1, he⟩

/-- **The bodies of methods do not matter.**  When a text declares a file, so does every text that
differs from it only between the braces of some bodies of methods, as long as braces and square
brackets are balanced in what stands there; and the two files are equal but for places. -/
theorem parse_of_bodies_edited (e : Edit) {f₁ : SourceFile}
    (hparse : (parse (e.text .old)).outcome = .ok f₁) (h : e.OfBodies BracketsBalanced f₁) :
    ∃ f₂, (parse (e.text .new)).outcome = .ok f₂ ∧
      Spanned.withoutSpans f₁ = Spanned.withoutSpans f₂ := by
  obtain ⟨us₁, us₂, last₁, last₂, hitems₁, hitems₂, haligned⟩ :=
    e.exists_aligned h.tokens h.contents
  rw [parse_outcome_of_items hitems₁] at hparse
  rw [parse_outcome_of_items hitems₂]
  dsimp only at hparse ⊢
  split at hparse
  · next hfaults =>
    cases hparse
    have hstart :
        SameDraft { current := { name := none, span := ((e.env .old).current us₁).span } }
        { current := { name := none, span := ((e.env .new).current us₂).span } } :=
      ⟨rfl, rfl, rfl, rfl⟩
    have hmarks := fun stop hstop => Draft.mem_bodyStops_of_blocks (h.bodies stop hstop)
    have hsame := readStatements_same haligned hstart true (List.isEmpty_iff.1 hfaults) hmarks
      fun _ _ => List.not_mem_nil
    have hnone₂ : (readStatements (e.env .new) _ true us₂).faults.isEmpty = true :=
      hsame.faults ▸ hfaults
    exact ⟨_, if_pos hnone₂, congrArg (SourceFile.mk · ⟨0, 0⟩) hsame.blocks⟩
  · cases hparse

/-- The names of the classes of a file. -/
def SourceFile.classNames (f : SourceFile) : List String :=
  f.blocks.flatMap fun b => b.classes.map (·.name.name)

theorem SourceFile.classNames_withoutSpans (f : SourceFile) :
    (Spanned.withoutSpans f).classNames = f.classNames := by
  show (f.blocks.map Spanned.withoutSpans).flatMap _ = f.blocks.flatMap _
  rw [List.flatMap_map]
  refine congrArg (List.flatMap · f.blocks) (funext fun b => ?_)
  show (b.classes.map Spanned.withoutSpans).map _ = b.classes.map _
  rw [List.map_map]
  rfl

/-- Whether a text declares a file with these classes, and with bodies of methods that stop
there. -/
def Parsed.declares (p : Parsed) (names : List String) (stops : List Nat) : Bool :=
  match p.outcome with
  | .ok f => f.classNames == names && f.bodyStops == stops
  | .error _ => false

theorem Parsed.exists_of_declares {p : Parsed} {names : List String} {stops : List Nat}
    (h : p.declares names stops = true) :
    ∃ f, p.outcome = .ok f ∧ f.classNames = names ∧ f.bodyStops = stops := by
  rw [declares] at h
  split at h
  · next f hf =>
    rw [Bool.and_eq_true, beq_iff_eq, beq_iff_eq] at h
    exact ⟨f, hf, h⟩
  · cases h

/-- The body of a method gets a comment, a class, an attribute and a tag with a brace behind it, in
`<?php class A {/** Kept. */ function f() {return;} const B = 1;}`. -/
def crowdedBody : Edit where
  parts := [.token [] .openTag "<?php ".toList, .token [] (.keyword .kwClass) "class".toList,
    .token [' '] .name ['A'], .token [' '] (.mark .braceOpen) ['\x7b'],
    .token [] .blockComment "/** Kept. */".toList,
    .token [' '] (.keyword .kwFunction) "function".toList, .token [' '] .name ['f'],
    .token [] (.mark .parenOpen) ['('], .token [] (.mark .parenClose) [')'],
    .block [' ']
      ⟨"return;".toList,
      [tokenAt .name 42 "return".toList, tokenAt (.mark .semicolon) 48 [';']]⟩
        ⟨"/** Lost. */ class C \x7buse D;\x7d #[E] ?>\x7b<?php ".toList,
        [tokenAt .blockComment 42 "/** Lost. */".toList,
        tokenAt (.keyword .kwClass) 55 "class".toList,
          tokenAt .name 61 ['C'], tokenAt (.mark .braceOpen) 63 ['\x7b'],
          tokenAt (.keyword .kwUse) 64 "use".toList, tokenAt .name 68 ['D'],
          tokenAt (.mark .semicolon) 69 [';'], tokenAt (.mark .braceClose) 70 ['\x7d'],
          tokenAt (.mark .attributeOpen) 72 "#[".toList, tokenAt .name 74 ['E'],
          tokenAt (.mark .bracketClose) 75 [']'], tokenAt .closeTag 77 "?>".toList,
          tokenAt .inlineHtml 79 ['\x7b'], tokenAt .openTag 80 "<?php ".toList]⟩,
    .token [' '] (.keyword .kwConst) "const".toList, .token [' '] .name ['B'],
    .token [' '] (.mark .equals) ['='], .token [' '] .number ['1'],
    .token [] (.mark .semicolon) [';'], .token [] (.mark .braceClose) ['\x7d']]
  tail := []

theorem parse_of_crowded_body :
    ∃ f₁ f₂, (parse (crowdedBody.text .old)).outcome = .ok f₁ ∧
    crowdedBody.OfBodies BracketsBalanced f₁ ∧
    (parse (crowdedBody.text .new)).outcome = .ok f₂ ∧
      Spanned.withoutSpans f₁ = Spanned.withoutSpans f₂ := by
  have hdeclares : (parse (crowdedBody.text .old)).declares ["A"] [50] = true := by decide +kernel
  obtain ⟨f₁, hf₁, -, hstops⟩ := Parsed.exists_of_declares hdeclares
  have hbodies : crowdedBody.OfBodies BracketsBalanced f₁ := by
    refine ⟨fun v => ?_, by decide +kernel, ?_⟩
    · cases v with
      | old => decide +kernel
      | new => decide +kernel
    · rw [hstops]
      decide +kernel
  obtain ⟨f₂, hf₂, hsame⟩ := parse_of_bodies_edited crowdedBody hf₁ hbodies
  exact ⟨f₁, f₂, hf₁, hbodies, hf₂, hsame⟩

/-- The body of a method gets a bracket and a class behind it, where an attribute was never closed:
`<?php #[;class X{function f(){}}` becomes `<?php #[;class X{function f(){]class Y{}}}`. -/
def strayBracket : Edit where
  parts := [.token [] .openTag "<?php ".toList, .token [] (.mark .attributeOpen) "#[".toList,
    .token [] (.mark .semicolon) [';'], .token [] (.keyword .kwClass) "class".toList,
    .token [' '] .name ['X'], .token [] (.mark .braceOpen) ['\x7b'],
    .token [] (.keyword .kwFunction) "function".toList, .token [' '] .name ['f'],
    .token [] (.mark .parenOpen) ['('], .token [] (.mark .parenClose) [')'],
    .block [] ⟨[], []⟩
      ⟨"]class Y\x7b\x7d".toList,
        [tokenAt (.mark .bracketClose) 30 [']'], tokenAt (.keyword .kwClass) 31 "class".toList,
          tokenAt .name 37 ['Y'], tokenAt (.mark .braceOpen) 38 ['\x7b'],
          tokenAt (.mark .braceClose) 39 ['\x7d']]⟩,
    .token [] (.mark .braceClose) ['\x7d']]
  tail := []

/-- **Balanced braces alone are not enough**: looking ahead for a class, an attribute that is never
closed is searched for its end in the bodies of methods too. -/
theorem parse_of_stray_bracket : ∃ f₁, (parse (strayBracket.text .old)).outcome = .ok f₁ ∧
    strayBracket.OfBodies (fun ks => Balanced opensBlock closesBlock ks ∧ .eof ∉ ks) f₁ ∧
    ¬∃ f₂, (parse (strayBracket.text .new)).outcome = .ok f₂ ∧
      Spanned.withoutSpans f₁ = Spanned.withoutSpans f₂ := by
  have hold : (parse (strayBracket.text .old)).declares ["X"] [31] = true := by decide +kernel
  have hnew : (parse (strayBracket.text .new)).declares ["Y"] [] = true := by decide +kernel
  obtain ⟨f₁, hf₁, hnames₁, hstops⟩ := Parsed.exists_of_declares hold
  obtain ⟨f, hf, hnames, -⟩ := Parsed.exists_of_declares hnew
  refine ⟨f₁, hf₁, ⟨fun v => ?_, by decide +kernel, ?_⟩, ?_⟩
  · cases v with
    | old => decide +kernel
    | new => decide +kernel
  · rw [hstops]
    decide +kernel
  · rintro ⟨f₂, hf₂, hsame⟩
    obtain rfl : f = f₂ := Except.ok.inj (hf.symm.trans hf₂)
    have hclasses := congrArg SourceFile.classNames hsame
    rw [SourceFile.classNames_withoutSpans, SourceFile.classNames_withoutSpans, hnames₁, hnames]
      at hclasses
    exact absurd hclasses (by decide)

end PhpHandbook.Declaration
