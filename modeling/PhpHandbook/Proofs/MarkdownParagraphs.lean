import PhpHandbook.Markdown.Html
import PhpHandbook.Proofs.MarkupTrees

/-!
# Documents without the tags at their ends

How Markdown is made HTML is not decided by the handbook, which relies on two properties of it
only: a document closes in order what it opens, and the tags of its paragraphs are written `<p>`.

A comment that is shown within a line loses the blanks at its end, or the tags of its only
paragraph.  The tags are looked for in the characters: the text in front must be `<p>`, the text at
the end `</p>`, and between them no other paragraph may start.  The two tags belong to one another.
A paragraph that is closed between them would have to be opened there as well, or else the last tag
would have nothing to close.

## Main definitions

* `Renders`: what is relied on where Markdown is made HTML.
* `plainParagraphs`: whether the tags of paragraphs are written `<p>`.

## Main statements

* `Renders.fragment_trimEnd`: a document without the blanks at its end is a fragment.
* `Renders.fragment_toInlineHtml`: so is a document without the tags of its only paragraph.
-/

namespace PhpHandbook.Markdown

open Markup

/-- **Whether the tags of paragraphs are written `<p>`**: behind `<p` that tag ends, or the name of
another tag goes on. -/
def plainParagraphs : List Char → Bool
  | [] => true
  | c :: cs =>
    (c != '<' || cs.head? != some 'p' || cs.tail.head?.all fun d => d == '>' || isTagChar d) &&
      plainParagraphs cs

/-- **What is relied on** where Markdown is made HTML. -/
structure Renders (toHtml : String → String) : Prop where
  /-- A document closes in order what it opens. -/
  fragment : ∀ text, Fragment (toHtml text)
  /-- Paragraphs have no attributes. -/
  paragraphs : ∀ text, plainParagraphs (toHtml text).toList = true

/-- Without the second property, the tags at the ends may belong to different paragraphs. -/
example : toInlineHtml id "<p>a</p>b<p class=\"x\">c</p>" = "a</p>b<p class=\"x\">c" := by
  decide +kernel

/-! ### Documents without their end -/

theorem dropBlankEnd_append_takeWhile (cs : List Char) :
    cs = Text.dropBlankEnd cs ++ (cs.reverse.takeWhile Text.isBlank).reverse := by
  rw [Text.dropBlankEnd, ← List.reverse_append, List.takeWhile_append_dropWhile,
    List.reverse_reverse]

/-- A fragment without the blanks at its end is a fragment. -/
theorem fragment_dropBlankEnd {s : String} (h : Fragment s) :
    Fragment (String.ofList (Text.dropBlankEnd s.toList)) := by
  refine h.of_append (dropBlankEnd_append_takeWhile _) fun c hc => ?_
  have hblank : Text.isBlank c = true :=
    List.all_eq_true.mp List.all_takeWhile c (List.mem_reverse.mp hc)
  refine ⟨?_, ?_, ?_, ?_⟩ <;>
    · rintro rfl
      exact absurd hblank (by decide +kernel)

/-! ### Tags of paragraphs -/

section PlainParagraphs

variable {front back : List Char}

theorem plainParagraphs_of_append (h : plainParagraphs (front ++ back) = true) :
    plainParagraphs front = true ∧ plainParagraphs back = true := by
  induction front with
  | nil => exact ⟨rfl, h⟩
  | cons c front ih =>
    obtain ⟨hfirst, hrest⟩ := Bool.and_eq_true_iff.1 h
    refine ⟨Bool.and_eq_true_iff.2 ⟨?_, (ih hrest).1⟩, (ih hrest).2⟩
    -- less of the text is seen from `c` on
    match front with
    | [] => simp
    | [d] => simp
    | d :: e :: front => exact hfirst

/-- What stands behind `<p`. -/
theorem eq_or_isTagChar_of_plainParagraphs {c : Char}
    (h : plainParagraphs (front ++ '<' :: 'p' :: c :: back) = true) :
    c = '>' ∨ isTagChar c = true := by
  simpa [plainParagraphs] using (Bool.and_eq_true_iff.1 (plainParagraphs_of_append h).2).1

end PlainParagraphs

/-- Whether an event is the start of a paragraph. -/
def StartsParagraph : Event → Prop
  | .opening tag _ => tag = "p"
  | _ => False

/-- **Where a reader is that has come past no start of a paragraph**: `read` is what it has read. -/
def Outside (read : List Char) : State → Prop
  | .bracket => ∃ front, read = front ++ ['<']
  | .opening name => ∃ front, read = front ++ '<' :: name
  | .inside tag | .attribute tag _ | .equals tag _ | .value tag _ _ | .valueReference tag _ _ _
  | .behindValue tag | .slash tag => tag.name ≠ ['p']
  | _ => True

theorem not_startsParagraph_opening {tag : Tag} (h : tag.name ≠ ['p']) :
    ¬StartsParagraph tag.opening :=
  fun hp => h (by simpa using congrArg String.toList hp)

theorem outside_step_tag {read : List Char} {tag : Tag} (h : tag.name ≠ ['p']) (c : Char) :
    Outside read (tag.step c).1 ∧ ∀ event ∈ (tag.step c).2, ¬StartsParagraph event := by
  unfold Tag.step
  (repeat' split) <;> simp [Outside, not_startsParagraph_opening h, h]

/-- One character more. -/
theorem outside_step {read rest : List Char} {c : Char} {state : State}
    (hplain : plainParagraphs (read ++ c :: rest) = true)
    (hnone : ¬"<p>".toList <:+: read ++ c :: rest) (h : Outside read state) :
    Outside (read ++ [c]) (state.step c).1 ∧
      ∀ event ∈ (state.step c).2, ¬StartsParagraph event := by
  cases state with
  | text =>
    rw [State.step]
    split
    next hbracket => exact ⟨⟨read, by rw [hbracket]⟩, by simp⟩
    · split <;> simp [Outside, StartsParagraph]
  | bracket =>
    obtain ⟨front, rfl⟩ := h
    have hopening : Outside (front ++ ['<'] ++ [c]) (.opening [c]) := ⟨front, by simp⟩
    simp only [State.step]
    (repeat' split) <;> simp [Outside]
  | opening name =>
    obtain ⟨front, rfl⟩ := h
    rw [State.step]
    split
    · exact ⟨⟨front, by simp⟩, by simp⟩
    next hc =>
      -- behind `<p` there could only be the end of the tag, but `<p>` does not occur
      have hname : (Tag.mk name []).name ≠ ['p'] := by
        rintro rfl
        rw [List.append_assoc] at hplain hnone
        rcases eq_or_isTagChar_of_plainParagraphs hplain with rfl | htag
        · exact hnone ⟨front, rest, by simp⟩
        · exact hc htag
      exact outside_step_tag hname c
  | inside tag =>
    rw [State.step]
    split
    · exact ⟨h, by simp⟩
    · exact outside_step_tag h c
  | behindValue tag => exact outside_step_tag h c
  | slash tag =>
    rw [State.step]
    split <;> simp [Outside, not_startsParagraph_opening h]
  | value tag name held =>
    have hadd : (tag.add name held).name ≠ ['p'] := h
    have htag : tag.name ≠ ['p'] := h
    rw [State.step]
    (repeat' split) <;> simp [Outside, hadd, htag]
  | _ =>
    -- a tag that is read on keeps its name, and outside of tags there is nothing to show
    simp only [Outside] at h
    rw [State.step]
    (repeat' split) <;> simp [Outside, StartsParagraph, h]

/-- **A text without `<p>` starts no paragraph**, if the tags of paragraphs are written so. -/
theorem not_startsParagraph_of_mem_scan (read : List Char) {rest : List Char} {state : State}
    (hplain : plainParagraphs (read ++ rest) = true) (hnone : ¬"<p>".toList <:+: read ++ rest)
    (h : Outside read state) :
    ∀ event ∈ (Markup.scan state rest).1, ¬StartsParagraph event := by
  induction rest generalizing read state with
  | nil => exact fun _ hevent => nomatch hevent
  | cons c rest ih =>
    obtain ⟨hnext, hevent⟩ := outside_step hplain hnone h
    refine List.forall_mem_append.2 ⟨fun event hmem => hevent event (by simpa using hmem), ?_⟩
    exact ih (read ++ [c]) (by simpa using hplain) (by simpa using hnone) hnext

/-! ### A paragraph that stays open -/

variable {events : List Event} {stack last : List String}

/-- Where no paragraph starts, none is open in the end unless it was at first. -/
theorem not_mem_of_unclosed (hnone : ∀ event ∈ events, ¬StartsParagraph event)
    (h : unclosed stack events = some last) (hstack : "p" ∉ stack) : "p" ∉ last := by
  induction events generalizing stack with
  | nil => exact Option.some.inj h ▸ hstack
  | cons event events ih =>
    obtain ⟨hevent, hevents⟩ := List.forall_mem_cons.1 hnone
    obtain ⟨next, hnext, hrest⟩ := Option.bind_eq_some_iff.1 h
    refine ih hevents hrest ?_
    cases event with
    | char c => exact Option.some.inj hnext ▸ hstack
    | declaration => exact Option.some.inj hnext ▸ hstack
    | opening tag attributes =>
      rw [← Option.some.inj hnext]
      split
      · exact hstack
      · exact List.not_mem_cons_of_ne_of_not_mem (fun hp => hevent hp.symm) hstack
    | closing tag =>
      cases stack with
      | nil => cases hnext
      | cons inner outer =>
        have houter : outer = next := by
          rw [Event.unclosed] at hnext
          split at hnext
          · exact Option.some.inj hnext
          · cases hnext
        exact houter ▸ fun hp => hstack (.tail inner hp)

/-- **A paragraph that is open at first and in the end** has been open all the time, so what is
below it could have been anything. -/
theorem exists_unclosed_append (hnone : ∀ event ∈ events, ¬StartsParagraph event)
    (h : unclosed (stack ++ ["p"]) events = some last) (hlast : "p" ∈ last) :
    ∃ upper, last = upper ++ ["p"] ∧
      ∀ below, unclosed (stack ++ below) events = some (upper ++ below) := by
  induction events generalizing stack with
  | nil => exact ⟨stack, (Option.some.inj h).symm, fun _ => rfl⟩
  | cons event events ih =>
    obtain ⟨hevent, hevents⟩ := List.forall_mem_cons.1 hnone
    obtain ⟨next, hnext, hrest⟩ := Option.bind_eq_some_iff.1 h
    -- it is enough that the first event leaves the paragraph alone
    suffices hstep : ∃ stack', next = stack' ++ ["p"] ∧
        ∀ below, event.unclosed (stack ++ below) = some (stack' ++ below) by
      obtain ⟨stack', rfl, hbelow⟩ := hstep
      obtain ⟨upper, rfl, hupper⟩ := ih hevents hrest
      refine ⟨upper, rfl, fun below => ?_⟩
      exact Option.bind_eq_some_iff.2 ⟨_, hbelow below, hupper below⟩
    cases event with
    | char c => exact ⟨stack, (Option.some.inj hnext).symm, fun _ => rfl⟩
    | declaration => exact ⟨stack, (Option.some.inj hnext).symm, fun _ => rfl⟩
    | opening tag attributes =>
      rw [← Option.some.inj hnext]
      by_cases hvoid : isVoid tag = true
      · exact ⟨stack, by simp [hvoid], fun below => by simp [Event.unclosed, hvoid]⟩
      · exact ⟨tag :: stack, by simp [hvoid], fun below => by simp [Event.unclosed, hvoid]⟩
    | closing tag =>
      cases stack with
      | nil =>
        -- the paragraph would be closed, and no other one is opened
        rw [List.nil_append, Event.unclosed] at hnext
        split at hnext
        · obtain rfl := Option.some.inj hnext
          exact absurd hlast (not_mem_of_unclosed hevents hrest (by simp))
        · cases hnext
      | cons inner outer =>
        rw [List.cons_append, Event.unclosed] at hnext
        split at hnext
        next htag =>
          refine ⟨outer, (Option.some.inj hnext).symm, fun below => ?_⟩
          rw [List.cons_append, Event.unclosed, if_pos htag]
        · cases hnext

/-! ### Documents of one paragraph -/

/-- Only a reader in text is in text behind `</p>`. -/
theorem eq_text_of_moves_closing {state : State} {found : List Event}
    (h : Moves state "</p>".toList found .text) : state = .text := by
  cases state with
  | text => rfl
  | _ => simp [Moves, Markup.scan, State.step, Tag.step, isTagChar, isAttributeChar] at h

/-- **What stands between the tags of a paragraph is a fragment**, if no other one starts there. -/
theorem fragment_of_paragraph {inner : List Char}
    (h : Fragment (String.ofList ("<p>".toList ++ inner ++ "</p>".toList)))
    (hplain : plainParagraphs inner = true) (hnone : ¬"<p>".toList <:+: inner) :
    Fragment (String.ofList inner) := by
  obtain ⟨found, hreads, hunclosed⟩ := h []
  rw [Reads, String.toList_ofList] at hreads
  obtain ⟨middle, front, back, hfront, hback, rfl⟩ := hreads.split
  obtain rfl := eq_text_of_moves_closing hback
  obtain ⟨start, opening, events, hopening, hinner, rfl⟩ := hfront.split
  obtain ⟨rfl, rfl⟩ : [Event.opening "p" []] = opening ∧ State.text = start :=
    Prod.mk.inj hopening
  obtain rfl : [Event.closing "p"] = back := (Prod.mk.inj hback).1
  have hevents : ∀ event ∈ events, ¬StartsParagraph event := by
    have hscan : ∀ event ∈ (Markup.scan .text inner).1, ¬StartsParagraph event :=
      not_startsParagraph_of_mem_scan [] hplain hnone trivial
    rwa [show Markup.scan .text inner = (events, .text) from hinner] at hscan
  -- the last tag closes the paragraph that the first one has opened
  obtain ⟨last, hlast, hclosing⟩ : ∃ last, unclosed ["p"] events = some last ∧
      unclosed last [.closing "p"] = some [] := by
    rw [unclosed_append, unclosed_append] at hunclosed
    exact Option.bind_eq_some_iff.1 hunclosed
  obtain rfl : last = ["p"] := by
    cases last with
    | nil => cases hclosing
    | cons inmost outer => simpa [unclosed, Event.unclosed] using hclosing
  have hinmost : unclosed ([] ++ ["p"]) events = some ["p"] := hlast
  obtain ⟨upper, hupper, hbelow⟩ := exists_unclosed_append hevents hinmost (by simp)
  obtain rfl : upper = [] := by simpa using hupper.symm
  exact fun stack => ⟨events, by rwa [Reads, String.toList_ofList], hbelow stack⟩

theorem occursInChars_of_isInfix {pattern cs : List Char} (h : pattern <:+: cs) :
    Text.occursInChars pattern cs = true := by
  obtain ⟨front, back, rfl⟩ := h
  induction front with
  | nil =>
    have hprefix : pattern.isPrefixOf (pattern ++ back) = true :=
      List.isPrefixOf_iff_prefix.mpr (List.prefix_append pattern back)
    cases h : pattern ++ back with
    | nil =>
      obtain ⟨rfl, rfl⟩ := List.append_eq_nil_iff.mp h
      rfl
    | cons c cs =>
      rw [h] at hprefix
      simp [h, Text.occursInChars, hprefix]
  | cons c front ih =>
    rw [List.cons_append, List.cons_append, Text.occursInChars, ih, Bool.or_true]

/-- A text with a front and a back that do not overlap has something between them. -/
theorem eq_append_between {front back cs : List Char} (hfront : front <+: cs) (hback : back <:+ cs)
    (hlength : front.length + back.length ≤ cs.length) :
    cs = front ++ (cs.drop front.length).take (cs.length - (front.length + back.length))
      ++ back := by
  obtain ⟨rest, rfl⟩ := hfront
  rw [List.length_append, Nat.add_le_add_iff_left] at hlength
  obtain ⟨inner, rfl⟩ :=
    List.suffix_of_suffix_length_le hback (List.suffix_append front rest) hlength
  simp [Nat.add_sub_add_left]

namespace Renders

variable {toHtml : String → String} (h : Renders toHtml)
include h

/-- **A document without the blanks at its end is a fragment.** -/
theorem fragment_trimEnd (text : String) : Fragment (Text.trimEnd (toHtml text)) :=
  fragment_dropBlankEnd (h.fragment text)

/-- **A document without the tags of its only paragraph is a fragment.** -/
theorem fragment_toInlineHtml (text : String) : Fragment (toInlineHtml toHtml text) := by
  unfold toInlineHtml
  dsimp only
  split
  next htags =>
    simp only [Bool.and_eq_true, List.isPrefixOf_iff_prefix, List.isSuffixOf_iff_suffix,
      decide_eq_true_eq] at htags
    obtain ⟨⟨hfront, hback⟩, hlength⟩ := htags
    have hbetween := eq_append_between hfront hback hlength
    split
    · exact h.fragment text
    next hnone =>
      have htrimmed := fragment_dropBlankEnd (h.fragment text)
      rw [hbetween] at htrimmed
      refine fragment_of_paragraph htrimmed ?_ fun hoccurs => ?_
      · have hplain := h.paragraphs text
        rw [dropBlankEnd_append_takeWhile (toHtml text).toList] at hplain
        have hwhole := (plainParagraphs_of_append hplain).1
        rw [hbetween, List.append_assoc] at hwhole
        exact (plainParagraphs_of_append (plainParagraphs_of_append hwhole).2).1
      · simp only [Text.occursIn, String.toList_ofList] at hnone
        exact hnone (occursInChars_of_isInfix hoccurs)
  · exact h.fragment text

end Renders

end PhpHandbook.Markdown
