import PhpHandbook.Proofs.MarkupReading

/-!
# Trees that survive printing

Printing a tree loses nothing if reading its printed form gives the tags and the characters of the
tree: then no text has become a tag, no value of an attribute has ended early, and no character
stands for another one.  A tree is `Sturdy` if its names are names, its anchors need no escaping,
and its ready parts are fragments, that is, texts that close whatever they open; nothing is asked of
the texts and of the values of attributes in it.

## Main definitions

* `unclosed`: the tags that are open behind what was read.
* `Fragment`: a text that is read as a whole and closes in order what it opens.
* `Html.events`, `Html.eventsIn`: what is meant by the pieces of a page.
* `Html.Sturdy`: a piece that can be printed.

## Main statements

* `Html.reads_printAll`: sturdy pieces are read back as they are meant.
* `Html.unclosed_eventsIn`: sturdy pieces close in order what they open.
-/

namespace PhpHandbook

namespace Markup

/-! ### Open tags -/

/-- Whether a tag has no content and is not closed. -/
def isVoid (tag : String) : Bool :=
  ["br", "hr", "img", "input", "meta"].contains tag

/-- The tags that are open behind an event, innermost first.  Only the innermost one may be
closed. -/
def Event.unclosed (stack : List String) : Event → Option (List String)
  | .char _ => some stack
  | .declaration => some stack
  | .opening tag _ => some (if isVoid tag then stack else tag :: stack)
  | .closing tag =>
    match stack with
    | [] => none
    | inner :: outer => if inner = tag then some outer else none

/-- **The tags that are open** behind several events. -/
def unclosed (stack : List String) (events : List Event) : Option (List String) :=
  events.foldlM Event.unclosed stack

theorem unclosed_append (stack : List String) (events more : List Event) :
    unclosed stack (events ++ more) = (unclosed stack events).bind (unclosed · more) :=
  List.foldlM_append

theorem unclosed_chars (stack : List String) (cs : List Char) :
    unclosed stack (cs.map .char) = some stack := by
  induction cs with
  | nil => rfl
  | cons c cs ih => exact ih

/-- A text that is read as a whole and leads from some open tags to others. -/
def Takes (s : String) (before after : List String) : Prop :=
  ∃ events, Reads s events ∧ unclosed before events = some after

/-- A **fragment** closes in order the tags that it opens, and no others. -/
def Fragment (s : String) : Prop :=
  ∀ stack, Takes s stack stack

theorem Takes.append {s t : String} {before middle after : List String} (h : Takes s before middle)
    (hmore : Takes t middle after) : Takes (s ++ t) before after := by
  obtain ⟨events, hreads, hunclosed⟩ := h
  obtain ⟨more, hreadsMore, hunclosedMore⟩ := hmore
  refine ⟨events ++ more, ?_, ?_⟩
  · rw [Reads, String.toList_append]
    exact hreads.append hreadsMore
  · rw [unclosed_append, hunclosed]
    exact hunclosedMore

theorem fragment_empty : Fragment "" :=
  fun _ => ⟨[], rfl, rfl⟩

theorem Fragment.append {s t : String} (h : Fragment s) (hmore : Fragment t) : Fragment (s ++ t) :=
  fun stack => (h stack).append (hmore stack)

/-- Characters that mean themselves. -/
theorem fragment_plain {s : String} (hplain : ∀ c ∈ s.toList, c ≠ '<' ∧ c ≠ '&') :
    Fragment s :=
  fun stack => ⟨_, moves_plain hplain, unclosed_chars stack s.toList⟩

/-- Lines of characters that mean themselves. -/
theorem fragment_ofList {cs : List Char} (hplain : cs.all (fun c => c != '<' && c != '&') = true) :
    Fragment (String.ofList cs) := by
  refine fragment_plain fun c hc => ?_
  rw [String.toList_ofList] at hc
  simpa using List.all_eq_true.mp hplain c hc

/-- Fragments with a fragment between them. -/
theorem fragment_intercalate {separator : String} {parts : List String}
    (hseparator : Fragment separator) (hparts : ∀ s ∈ parts, Fragment s) :
    Fragment (separator.intercalate parts) := by
  induction parts with
  | nil => exact String.intercalate_nil ▸ fragment_empty
  | cons s parts ih =>
    cases parts with
    | nil => exact String.intercalate_singleton ▸ hparts s (.head [])
    | cons t parts =>
      rw [String.intercalate_cons_cons]
      exact ((hparts s (.head _)).append hseparator).append (ih fun u hu => hparts u (.tail s hu))

/-- Text that is left off at the end of a fragment, as long as no tag and no reference ends in
it. -/
theorem Fragment.of_append {s : String} {kept left : List Char} (h : Fragment s)
    (hs : s.toList = kept ++ left)
    (hleft : ∀ c ∈ left, c ≠ '<' ∧ c ≠ '&' ∧ c ≠ '>' ∧ c ≠ ';') :
    Fragment (String.ofList kept) := by
  intro stack
  obtain ⟨events, hreads, hunclosed⟩ := h stack
  rw [Reads, hs] at hreads
  obtain ⟨middle, front, back, hkept, hrest, rfl⟩ := hreads.split
  have hmiddle : middle = .text :=
    Decidable.byContradiction fun hne => hrest.ne_text hne (fun c hc => (hleft c hc).2.2) rfl
  subst hmiddle
  have hback : back = left.map .char :=
    congrArg Prod.fst (hrest.symm.trans
      (moves_plain fun c hc => ⟨(hleft c hc).1, (hleft c hc).2.1⟩))
  refine ⟨front, by rwa [Reads, String.toList_ofList], ?_⟩
  rw [unclosed_append, hback] at hunclosed
  cases hfront : unclosed stack front with
  | none => simp [hfront] at hunclosed
  | some found => simpa [hfront, unclosed_chars] using hunclosed

end Markup

/-! ### Trees -/

namespace Html

open Markup

mutual

/-- **What is meant** by a piece. -/
def events : Html → List Event
  | .text s => s.toList.map .char
  | .element tag attributes content => .opening tag attributes :: eventsIn content ++ [.closing tag]
  | .anchored tag attributes id content =>
    .opening tag (attributes ++ [("id", id)]) :: eventsIn content ++ [.closing tag]
  | .single tag attributes => [.opening tag attributes]
  | .ready markup => (scan .text markup.toList).1

/-- What is meant by several pieces. -/
def eventsIn : List Html → List Event
  | [] => []
  | h :: rest => h.events ++ eventsIn rest

end

/-- Whether the name of a tag and those of its attributes are names. -/
def isNamed (tag : String) (attributes : List (String × String)) : Bool :=
  isTag tag && attributes.all fun (name, _) => isAttribute name

/-- **A piece that can be printed.** -/
inductive Sturdy : Html → Prop where
  /-- Any text. -/
  | text (s : String) : Sturdy (.text s)
  /-- An element that is closed. -/
  | element {tag : String} {attributes : List (String × String)} {content : List Html}
      (named : isNamed tag attributes = true) (closed : isVoid tag = false)
      (inside : ∀ h ∈ content, Sturdy h) : Sturdy (.element tag attributes content)
  /-- An element that links lead to, with an anchor that escaping leaves as it is. -/
  | anchored {tag : String} {attributes : List (String × String)} {id : String}
      {content : List Html} (named : isNamed tag attributes = true) (closed : isVoid tag = false)
      (anchor : Text.markup id = id) (inside : ∀ h ∈ content, Sturdy h) :
        Sturdy (.anchored tag attributes id content)
  /-- An element that is not closed. -/
  | single {tag : String} {attributes : List (String × String)}
      (named : isNamed tag attributes = true)
      (unclosed : isVoid tag = true) : Sturdy (.single tag attributes)
  /-- A fragment that was made elsewhere. -/
  | ready {markup : String} (fragment : Fragment markup) : Sturdy (.ready markup)

/-- Pieces that can be printed. -/
def AllSturdy (content : List Html) : Prop :=
  ∀ h ∈ content, Sturdy h

/-- A piece that is read back as it is meant and closes in order what it opens. -/
structure Kept (h : Html) : Prop where
  reads : Reads h.print h.events
  nested : ∀ stack, unclosed stack h.events = some stack

theorem reads_printAll_of_kept {content : List Html} (hcontent : ∀ h ∈ content, Kept h) :
    Reads (printAll content) (eventsIn content) := by
  induction content with
  | nil => exact moves_nil _
  | cons h content ih =>
    rw [Reads, printAll, eventsIn, String.toList_append]
    exact (hcontent h (.head content)).reads.append (ih fun g hg => hcontent g (.tail h hg))

theorem unclosed_eventsIn_of_kept {content : List Html} (hcontent : ∀ h ∈ content, Kept h)
    (stack : List String) : unclosed stack (eventsIn content) = some stack := by
  induction content with
  | nil => rfl
  | cons h content ih =>
    rw [eventsIn, unclosed_append, (hcontent h (.head content)).nested stack]
    exact ih fun g hg => hcontent g (.tail h hg)

theorem isTag_of_isNamed {tag attributes} (h : isNamed tag attributes = true) :
    isTag tag = true :=
  (Bool.and_eq_true _ _ ▸ h).1

theorem reads_opening_of_isNamed {tag attributes} (h : isNamed tag attributes = true) :
    Reads ("<" ++ tag ++ printAttributes attributes ++ ">") [.opening tag attributes] := by
  rw [isNamed, Bool.and_eq_true] at h
  exact reads_opening h.1 (attributes_printAttributes (List.all_eq_true.mp h.2))

/-- Kept content between the tags of an element is kept. -/
theorem kept_element {tag attributes content} (hnamed : isNamed tag attributes = true)
    (hclosed : isVoid tag = false) (hcontent : ∀ h ∈ content, Kept h) :
    Kept (.element tag attributes content) where
  reads := by
    have hwhole := (Moves.append (reads_opening_of_isNamed hnamed)
      (reads_printAll_of_kept hcontent)).append (reads_closing (isTag_of_isNamed hnamed))
    simpa [Reads, print, events] using hwhole
  nested := by
    intro stack
    have hopened : unclosed stack [.opening tag attributes] = some (tag :: stack) := by
      simp [unclosed, Event.unclosed, hclosed]
    have hend : unclosed (tag :: stack) [.closing tag] = some stack := by
      simp [unclosed, Event.unclosed]
    rw [events, List.cons_append, ← List.singleton_append, unclosed_append, hopened,
      Option.bind_some, unclosed_append, unclosed_eventsIn_of_kept hcontent, Option.bind_some, hend]

/-- An anchor that escaping leaves as it is is an attribute like any other. -/
theorem print_anchored {tag attributes id content} (hanchor : Text.markup id = id) :
    print (.anchored tag attributes id content) =
      print (.element tag (attributes ++ [("id", id)]) content) := by
  have hname : ∀ s, " id=\"" ++ s = " " ++ ("id" ++ ("=\"" ++ s)) := fun s => by
    rw [← String.append_assoc, ← String.append_assoc]
    rfl
  simp [print, printAttributes, hanchor, hname, String.append_assoc]

theorem isNamed_anchored {tag attributes} (h : isNamed tag attributes = true) (id : String) :
    isNamed tag (attributes ++ [("id", id)]) = true := by
  have hid : isAttribute "id" = true := by decide
  rw [isNamed, Bool.and_eq_true] at h ⊢
  exact ⟨h.1, by simp [h.2, hid]⟩

/-- **A sturdy piece is kept.** -/
theorem Sturdy.kept {h : Html} (hsturdy : h.Sturdy) : h.Kept := by
  induction hsturdy with
  | text s => exact ⟨reads_markup s, fun stack => unclosed_chars stack s.toList⟩
  | element hnamed hclosed _ ih => exact kept_element hnamed hclosed ih
  | @anchored tag attributes id content hnamed hclosed hanchor _ ih =>
    have hkept := kept_element (isNamed_anchored hnamed id) hclosed ih
    exact ⟨(print_anchored hanchor).symm ▸ hkept.reads, hkept.nested⟩
  | single hnamed hvoid =>
    refine ⟨reads_opening_of_isNamed hnamed, ?_⟩
    intro stack
    simp [events, unclosed, Event.unclosed, hvoid]
  | @ready markup hfragment =>
    have hread : ∀ stack, Reads markup (events (.ready markup)) ∧
        unclosed stack (events (.ready markup)) = some stack := by
      intro stack
      obtain ⟨found, hreads, hunclosed⟩ := hfragment stack
      rw [events, show scan .text markup.toList = (found, .text) from hreads]
      exact ⟨hreads, hunclosed⟩
    exact ⟨(hread []).1, fun stack => (hread stack).2⟩

/-- **Sturdy pieces are read back as they are meant.** -/
theorem reads_printAll {content : List Html} (hcontent : AllSturdy content) :
    Reads (printAll content) (eventsIn content) :=
  reads_printAll_of_kept fun h hh => (hcontent h hh).kept

/-- **Sturdy pieces close in order what they open.** -/
theorem unclosed_eventsIn {content : List Html} (hcontent : AllSturdy content)
    (stack : List String) : unclosed stack (eventsIn content) = some stack :=
  unclosed_eventsIn_of_kept (fun h hh => (hcontent h hh).kept) stack

/-! ### Pieces of pages -/

section Pieces

variable {tag : String} {attributes : List (String × String)} {content more : List Html}

@[simp]
theorem allSturdy_nil : AllSturdy [] :=
  fun _ hh => nomatch hh

@[simp]
theorem allSturdy_cons {h : Html} : AllSturdy (h :: content) ↔ h.Sturdy ∧ AllSturdy content :=
  List.forall_mem_cons

@[simp]
theorem allSturdy_append :
    AllSturdy (content ++ more) ↔ AllSturdy content ∧ AllSturdy more :=
  List.forall_mem_append

@[simp]
theorem allSturdy_flatMap {α : Type} {as : List α} {f : α → List Html} :
    AllSturdy (as.flatMap f) ↔ ∀ a ∈ as, AllSturdy (f a) := by
  simp only [AllSturdy, List.mem_flatMap]
  exact ⟨fun h a ha g hg => h g ⟨a, ha, hg⟩, fun h g ⟨a, ha, hg⟩ => h a ha g hg⟩

@[simp]
theorem allSturdy_ite {p : Prop} [Decidable p] :
    AllSturdy (if p then content else more) ↔
      (p → AllSturdy content) ∧ (¬p → AllSturdy more) := by
  split <;> simp_all

@[simp]
theorem allSturdy_elim {α : Type} {o : Option α} {f : α → List Html} :
    AllSturdy (o.elim content f) ↔ (o = none → AllSturdy content) ∧ ∀ a, o = some a →
      AllSturdy (f a) := by
  cases o <;> simp

@[simp]
theorem sturdy_text (s : String) : Sturdy (.text s) :=
  .text s

@[simp]
theorem sturdy_element (hnamed : isNamed tag attributes = true) (hclosed : isVoid tag = false) :
    Sturdy (.element tag attributes content) ↔ AllSturdy content :=
  ⟨fun h => by cases h with | element _ _ inside => exact inside, .element hnamed hclosed⟩

@[simp]
theorem sturdy_single (hnamed : isNamed tag attributes = true) (hvoid : isVoid tag = true) :
    Sturdy (.single tag attributes) :=
  .single hnamed hvoid

@[simp]
theorem sturdy_classed {className : String} (hnamed : isNamed tag [("class", className)] = true)
    (hclosed : isVoid tag = false) : Sturdy (classed tag className content) ↔ AllSturdy content :=
  sturdy_element hnamed hclosed

@[simp]
theorem sturdy_plain (hnamed : isNamed tag [] = true) (hclosed : isVoid tag = false) :
    Sturdy (plain tag content) ↔ AllSturdy content :=
  sturdy_element hnamed hclosed

@[simp]
theorem sturdy_anchor (href label : String) : Sturdy (anchor href label) :=
  (sturdy_element rfl rfl).2 (by simp)

@[simp]
theorem allSturdy_line {indent : String} :
    AllSturdy (line indent content) ↔ AllSturdy content := by
  simp [line]

@[simp]
theorem allSturdy_block {indent : String} (hnamed : isNamed tag attributes = true)
    (hclosed : isVoid tag = false) :
    AllSturdy (block indent tag attributes content) ↔ AllSturdy content := by
  simp [block, hnamed, hclosed]

theorem separated_cons_cons (separator : String) (piece next : List Html)
    (pieces : List (List Html)) : separated separator (piece :: next :: pieces)
      = piece ++ .text separator :: separated separator (next :: pieces) :=
  rfl

/-- What holds of the separator and of all pieces. -/
theorem forall_mem_separated {P : Html → Prop} {separator : String} {pieces : List (List Html)}
    (hseparator : P (.text separator)) (hpieces : ∀ piece ∈ pieces, ∀ h ∈ piece, P h) :
    ∀ h ∈ separated separator pieces, P h := by
  induction pieces with
  | nil => exact fun _ hh => nomatch hh
  | cons piece pieces ih =>
    cases pieces with
    | nil => exact hpieces piece (.head [])
    | cons next pieces =>
      have hrest := ih fun p hp => hpieces p (.tail piece hp)
      exact List.forall_mem_append.2
        ⟨hpieces piece (.head _), List.forall_mem_cons.2 ⟨hseparator, hrest⟩⟩

theorem allSturdy_separated {separator : String} {pieces : List (List Html)}
    (hpieces : ∀ piece ∈ pieces, AllSturdy piece) : AllSturdy (separated separator pieces) :=
  forall_mem_separated (sturdy_text separator) hpieces

end Pieces

end Html

end PhpHandbook
