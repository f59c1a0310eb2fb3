import PhpHandbook.Proofs.MarkupTrees

/-!
# Texts without their tags

Whoever looks at a page sees no tags, and sees a character where its reference stands.  Leaving out
tags is as simple as can be here: from a bracket to the next one that closes it.  It knows nothing
of attributes or of quotes, so what it leaves is the text of the page only because no name and no
value in a tag has a bracket of its own.  Putting characters for references then undoes escaping.

## Main definitions

* `Markup.withoutTags`, `Markup.decoded`: leaving out tags, and putting characters for references.
* `Html.textIn`, `Html.tagsIn`: the text of pieces, and their tags.
* `Html.LeavesText`: a piece of which the text is left when the tags are left out.

## Main statements

* `decodeFrom_flatMap_markupChar`: an escaped text is decoded to the text.
* `leavesText_text`, `leavesText_element`: texts and elements leave their texts.
* `decoded_withoutTags`: pieces without their tags are their texts.
-/

namespace PhpHandbook

namespace Markup

/-! ### Characters and tags -/

/-- The character of text that a reader comes past, if it is one. -/
def Event.char? : Event → Option Char
  | .char c => some c
  | _ => none

/-- The characters of text that a reader comes past. -/
def charsOf (events : List Event) : List Char :=
  events.filterMap Event.char?

/-- The tags that a reader comes past. -/
def tagsOf (events : List Event) : List Event :=
  events.filter (·.char?.isNone)

section Events

variable (events more : List Event) (tag : String) (attributes : List (String × String))

@[simp]
theorem charsOf_nil : charsOf [] = [] :=
  rfl

@[simp]
theorem charsOf_append : charsOf (events ++ more) = charsOf events ++ charsOf more :=
  List.filterMap_append

@[simp]
theorem charsOf_opening : charsOf (.opening tag attributes :: events) = charsOf events :=
  rfl

@[simp]
theorem charsOf_closing : charsOf (.closing tag :: events) = charsOf events :=
  rfl

@[simp]
theorem tagsOf_append : tagsOf (events ++ more) = tagsOf events ++ tagsOf more :=
  List.filter_append events more

@[simp]
theorem tagsOf_opening :
    tagsOf (.opening tag attributes :: events) = .opening tag attributes :: tagsOf events :=
  rfl

@[simp]
theorem tagsOf_closing : tagsOf (.closing tag :: events) = .closing tag :: tagsOf events :=
  rfl

end Events

@[simp]
theorem charsOf_chars (cs : List Char) : charsOf (cs.map .char) = cs := by
  simp [charsOf, Function.comp_def, Event.char?]

@[simp]
theorem tagsOf_chars (cs : List Char) : tagsOf (cs.map .char) = [] := by
  simp [tagsOf, Event.char?]

/-! ### Leaving out tags -/

/-- What stands outside of tags, in a text that starts outside or inside of one. -/
def outsideTags (inTag : Bool) : List Char → List Char
  | [] => []
  | c :: cs =>
    if inTag then outsideTags (c != '>') cs
    else if c = '<' then outsideTags true cs
    else c :: outsideTags false cs

/-- **A text without its tags**: all is left out from `<` to the next `>`. -/
def withoutTags (s : String) : String :=
  String.ofList (outsideTags false s.toList)

theorem outsideTags_append {cs : List Char} (hcs : ∀ c ∈ cs, c ≠ '<') (rest : List Char) :
    outsideTags false (cs ++ rest) = cs ++ outsideTags false rest := by
  induction cs with
  | nil => rfl
  | cons c cs ih =>
    rw [List.cons_append, outsideTags, if_neg Bool.false_ne_true, if_neg (hcs c (.head cs)),
      ih fun d hd => hcs d (.tail c hd), List.cons_append]

/-- A tag is left out, if nothing in it looks like its end. -/
theorem outsideTags_tag {cs : List Char} (hcs : ∀ c ∈ cs, c ≠ '>') (rest : List Char) :
    outsideTags false ('<' :: cs ++ '>' :: rest) = outsideTags false rest := by
  have hinside : outsideTags true (cs ++ '>' :: rest) = outsideTags false rest := by
    induction cs with
    | nil => rfl
    | cons c cs ih =>
      have hc : (c != '>') = true := bne_iff_ne.2 (hcs c (.head cs))
      rw [List.cons_append, outsideTags, if_pos rfl, hc, ih fun d hd => hcs d (.tail c hd)]
  rw [List.cons_append, outsideTags, if_neg Bool.false_ne_true, if_pos rfl, hinside]

/-! ### Characters for references -/

/-- Puts characters for references, from the left. -/
def decodeFrom : List Char → List Char
  | '&' :: 'a' :: 'm' :: 'p' :: ';' :: cs => '&' :: decodeFrom cs
  | '&' :: 'l' :: 't' :: ';' :: cs => '<' :: decodeFrom cs
  | '&' :: 'g' :: 't' :: ';' :: cs => '>' :: decodeFrom cs
  | '&' :: 'q' :: 'u' :: 'o' :: 't' :: ';' :: cs => '"' :: decodeFrom cs
  | '&' :: '#' :: '3' :: '9' :: ';' :: cs => '\'' :: decodeFrom cs
  | c :: cs => c :: decodeFrom cs
  | [] => []

/-- **A text with characters for references.** -/
def decoded (s : String) : String :=
  String.ofList (decodeFrom s.toList)

theorem decodeFrom_cons {c : Char} (hc : c ≠ '&') (cs : List Char) :
    decodeFrom (c :: cs) = c :: decodeFrom cs := by
  rw [decodeFrom] <;> intros <;> contradiction

theorem decodeFrom_markupChar (c : Char) (rest : List Char) :
    decodeFrom (Text.markupChar c ++ rest) = c :: decodeFrom rest := by
  unfold Text.markupChar
  split
  all_goals try rfl
  next hreference _ _ _ _ => exact decodeFrom_cons hreference rest

/-- **An escaped text is decoded to the text.** -/
theorem decodeFrom_flatMap_markupChar (cs : List Char) :
    decodeFrom (cs.flatMap Text.markupChar) = cs := by
  induction cs with
  | nil => rfl
  | cons c cs ih => rw [List.flatMap_cons, decodeFrom_markupChar, ih]

end Markup

/-! ### Texts and tags of pieces -/

namespace Html

open Markup

/-- **The text of pieces.** -/
def textIn (content : List Html) : String :=
  String.ofList (charsOf (eventsIn content))

/-- **The tags of pieces.** -/
def tagsIn (content : List Html) : List Event :=
  tagsOf (eventsIn content)

section Parts

variable (content more : List Html) (s tag separator : String)
    (attributes : List (String × String))

theorem eventsIn_append : eventsIn (content ++ more) = eventsIn content ++ eventsIn more := by
  induction content with
  | nil => rfl
  | cons h content ih => rw [List.cons_append, eventsIn, ih, eventsIn, List.append_assoc]

@[simp]
theorem textIn_nil : textIn [] = "" :=
  rfl

@[simp]
theorem textIn_append : textIn (content ++ more) = textIn content ++ textIn more := by
  simp [textIn, eventsIn_append]

@[simp]
theorem textIn_text : textIn (.text s :: content) = s ++ textIn content := by
  simp [textIn, eventsIn, events]

@[simp]
theorem textIn_element : textIn (.element tag attributes content :: more)
    = textIn content ++ textIn more := by
  simp [textIn, eventsIn, events]

theorem textIn_separated (pieces : List (List Html)) :
    textIn (separated separator pieces) = separator.intercalate (pieces.map textIn) := by
  induction pieces with
  | nil => rfl
  | cons piece pieces ih =>
    cases pieces with
    | nil => simp [separated]
    | cons next pieces =>
      rw [separated_cons_cons, textIn_append, textIn_text, ih, List.map_cons, List.map_cons,
        List.map_cons, String.intercalate_cons_cons, String.append_assoc]

@[simp]
theorem tagsIn_nil : tagsIn [] = [] :=
  rfl

@[simp]
theorem tagsIn_append : tagsIn (content ++ more) = tagsIn content ++ tagsIn more := by
  simp [tagsIn, eventsIn_append]

@[simp]
theorem tagsIn_text : tagsIn (.text s :: content) = tagsIn content := by
  simp [tagsIn, eventsIn, events]

@[simp]
theorem tagsIn_element : tagsIn (.element tag attributes content :: more)
    = .opening tag attributes :: tagsIn content ++ .closing tag :: tagsIn more := by
  simp [tagsIn, eventsIn, events]

theorem tagsIn_eq_flatMap : tagsIn content = content.flatMap fun h => tagsIn [h] := by
  induction content with
  | nil => rfl
  | cons h content ih =>
    rw [List.flatMap_cons, ← ih, ← tagsIn_append]
    rfl

end Parts

/-! ### Pieces without their tags -/

/-- A piece of which the escaped text is left when the tags are left out, whatever stands behind
it. -/
def LeavesText (h : Html) : Prop :=
  ∀ rest, outsideTags false (h.print.toList ++ rest)
    = (charsOf h.events).flatMap Text.markupChar ++ outsideTags false rest

theorem ne_of_mem_markupChar {c d : Char} (h : d ∈ Text.markupChar c) :
    d ≠ '<' ∧ d ≠ '>' := by
  have hreference : ∀ cs : List Char, cs.all (fun e => e != '<' && e != '>') = true →
      d ∈ cs → d ≠ '<' ∧ d ≠ '>' := fun cs hcs hd => by
    simpa using List.all_eq_true.1 hcs d hd
  unfold Text.markupChar at h
  split at h
  case h_6 hless hgreater _ _ =>
    obtain rfl := List.mem_singleton.1 h
    exact ⟨hless, hgreater⟩
  all_goals exact hreference _ (by decide) h

theorem ne_of_mem_markup {s : String} {c : Char} (h : c ∈ (Text.markup s).toList) :
    c ≠ '<' ∧ c ≠ '>' := by
  rw [Text.markup, String.toList_ofList] at h
  obtain ⟨d, -, hd⟩ := List.mem_flatMap.1 h
  exact ne_of_mem_markupChar hd

theorem leavesText_text (s : String) : LeavesText (.text s) := by
  intro rest
  rw [print, outsideTags_append (fun c hc => (ne_of_mem_markup hc).1), events, charsOf_chars,
    Text.markup, String.toList_ofList]

theorem outsideTags_printAll {content : List Html} (h : ∀ p ∈ content, LeavesText p)
    (rest : List Char) : outsideTags false ((printAll content).toList ++ rest)
      = (charsOf (eventsIn content)).flatMap Text.markupChar ++ outsideTags false rest := by
  induction content with
  | nil => rfl
  | cons p content ih =>
    rw [printAll, String.toList_append, List.append_assoc, h p (.head content),
      ih fun q hq => h q (.tail p hq), eventsIn, charsOf_append, List.flatMap_append,
      List.append_assoc]

/-- Nothing among the attributes of a tag looks like its end. -/
theorem ne_of_mem_printAttributes {attributes : List (String × String)}
    (h : ∀ a ∈ attributes, isAttribute a.1 = true) {c : Char}
    (hc : c ∈ (printAttributes attributes).toList) : c ≠ '>' := by
  induction attributes with
  | nil => exact absurd hc (List.not_mem_nil)
  | cons a attributes ih =>
    obtain ⟨name, value⟩ := a
    have hname : ∀ d ∈ name.toList, isAttributeChar d = true := by
      have hnamed := h (name, value) (.head attributes)
      rw [isAttribute, Bool.and_eq_true, List.all_eq_true] at hnamed
      exact hnamed.2
    rw [printAttributes_cons] at hc
    simp only [String.toList_append, List.mem_append] at hc
    obtain ((((hblank | hin) | hequals) | hvalue) | hquote) | hrest := hc
    · rintro rfl; revert hblank; decide
    · rintro rfl; exact absurd (hname _ hin) (by decide)
    · rintro rfl; revert hequals; decide
    · exact (ne_of_mem_markup hvalue).2
    · rintro rfl; revert hquote; decide
    · exact ih (fun b hb => h b (.tail _ hb)) hrest

theorem ne_of_mem_tag {tag : String} (h : isTag tag = true) {c : Char} (hc : c ∈ tag.toList) :
    c ≠ '>' := by
  rintro rfl
  rw [isTag, Bool.and_eq_true, List.all_eq_true] at h
  exact absurd (h.2 _ hc) (by decide)

theorem leavesText_element {tag : String} {attributes : List (String × String)}
    {content : List Html} (hnamed : isNamed tag attributes = true)
    (hcontent : ∀ p ∈ content, LeavesText p) :
    LeavesText (.element tag attributes content) := by
  intro rest
  obtain ⟨htag, hattributes⟩ := (Bool.and_eq_true _ _).mp hnamed
  have hopening : ∀ c ∈ tag.toList ++ (printAttributes attributes).toList, c ≠ '>' := by
    refine List.forall_mem_append.2 ⟨fun c hc => ne_of_mem_tag htag hc, fun c hc => ?_⟩
    exact ne_of_mem_printAttributes (List.all_eq_true.1 hattributes) hc
  have hclosing : ∀ c ∈ '/' :: tag.toList, c ≠ '>' :=
    List.forall_mem_cons.2 ⟨by decide, fun c hc => ne_of_mem_tag htag hc⟩
  have hprint : (print (.element tag attributes content)).toList ++ rest
      = '<' :: (tag.toList ++ (printAttributes attributes).toList) ++ '>' ::
        ((printAll content).toList ++ ('<' :: ('/' :: tag.toList) ++ '>' :: rest)) := by
    simp [print]
  rw [hprint, outsideTags_tag hopening, outsideTags_printAll hcontent, outsideTags_tag hclosing]
  simp [events]

/-- **Pieces without their tags are their texts.** -/
theorem decoded_withoutTags {content : List Html} (h : ∀ p ∈ content, LeavesText p) :
    decoded (withoutTags (printAll content)) = textIn content := by
  have houtside := outsideTags_printAll h []
  rw [List.append_nil] at houtside
  rw [decoded, withoutTags, String.toList_ofList, houtside, outsideTags, List.append_nil,
    decodeFrom_flatMap_markupChar, textIn]

/-- Brackets in a value and in the text of an element. -/
example : decoded (withoutTags "<abbr title=\"A&lt;B\">A&lt;B</abbr>&lt;int&gt;") = "A<B<int>" := by
  decide +kernel

end Html

end PhpHandbook
