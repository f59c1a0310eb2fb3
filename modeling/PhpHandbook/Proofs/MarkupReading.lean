import PhpHandbook.Html

/-!
# Markup that is read back

A page is printed from a tree, and whoever reads it sees characters only.  The reader here goes
through them one by one and gives the tags and the characters of text that it comes past.

It is strict.  It knows no markup but what pages are made of: tags whose attribute values stand in
double quotes, the references by which characters are escaped, and the declaration at the beginning
of a page.  Anything else breaks it, so whatever it reads to the end any other reader reads in the
same way.

## Main definitions

* `State.step`, `scan`: reading one character, and reading a text.
* `Moves`, `Reads`: what a reader comes past from one place to another, and in a whole text.
* `Quotes`, `Attributes`: texts that stay within the value of an attribute, and within a tag.

## Main statements

* `reads_markup`, `quotes_markup`: escaped texts are read as they are meant, in text and in values.
* `reads_opening`, `reads_closing`: tags are read as they are meant.
-/

namespace PhpHandbook.Markup

/-! ### Reading -/

/-- What a reader of markup comes past. -/
inductive Event where
  /-- A character of text, as it is meant. -/
  | char (c : Char)
  /-- An opening tag with its attributes. -/
  | opening (tag : String) (attributes : List (String × String))
  /-- A closing tag. -/
  | closing (tag : String)
  /-- A declaration of the kind of document. -/
  | declaration
deriving DecidableEq, Repr

/-- The character that a reference stands for. -/
def referenced? (name : List Char) : Option Char :=
  match String.ofList name with
  | "amp" => some '&'
  | "lt" => some '<'
  | "gt" => some '>'
  | "quot" => some '"'
  | "#39" => some '\''
  | "#x27" => some '\''
  | _ => none

/-- An opening tag as far as it has been read. -/
structure Tag where
  name : List Char
  attributes : List (String × String) := []
deriving DecidableEq, Repr

namespace Tag

/-- The tag with one more attribute. -/
def add (tag : Tag) (name value : List Char) : Tag :=
  { tag with attributes := tag.attributes ++ [(String.ofList name, String.ofList value)] }

/-- The tag when it is complete. -/
def opening (tag : Tag) : Event :=
  .opening (String.ofList tag.name) tag.attributes

end Tag

/-- **Where a reader is.** -/
inductive State where
  /-- In text. -/
  | text
  /-- In a reference in text, behind the given characters of its name. -/
  | reference (name : List Char)
  /-- Behind the bracket that starts a tag. -/
  | bracket
  /-- In a declaration. -/
  | declaration
  /-- In the name of a closing tag. -/
  | closing (name : List Char)
  /-- In the name of an opening tag. -/
  | opening (name : List Char)
  /-- Behind a blank in an opening tag. -/
  | inside (tag : Tag)
  /-- In the name of an attribute. -/
  | attribute (tag : Tag) (name : List Char)
  /-- Behind the equals sign of an attribute. -/
  | equals (tag : Tag) (name : List Char)
  /-- In the value of an attribute. -/
  | value (tag : Tag) (name value : List Char)
  /-- In a reference in the value of an attribute. -/
  | valueReference (tag : Tag) (name value reference : List Char)
  /-- Behind the value of an attribute. -/
  | behindValue (tag : Tag)
  /-- Behind the slash at the end of an opening tag. -/
  | slash (tag : Tag)
  /-- Behind something that is no markup. -/
  | broken
deriving DecidableEq, Repr

/-- Characters of the names of tags. -/
def isTagChar (c : Char) : Bool :=
  c.isAlphanum

/-- Characters of the names of attributes. -/
def isAttributeChar (c : Char) : Bool :=
  c.isAlpha || c == '-'

/-- Whether a text is the name of a tag. -/
def isTag (tag : String) : Bool :=
  tag.toList.head?.any Char.isAlpha && tag.toList.all isTagChar

/-- Whether a text is the name of an attribute. -/
def isAttribute (name : String) : Bool :=
  !name.toList.isEmpty && name.toList.all isAttributeChar

/-- What a character means behind the name of a tag and behind an attribute. -/
def Tag.step (tag : Tag) (c : Char) : State × Option Event :=
  if c = ' ' then (.inside tag, none)
  else if c = '/' then (.slash tag, none)
  else if c = '>' then (.text, some tag.opening)
  else (.broken, none)

/-- **Reads one character.** -/
def State.step : State → Char → State × Option Event
  | .text, c =>
    if c = '<' then (.bracket, none)
    else if c = '&' then (.reference [], none)
    else (.text, some (.char c))
  | .reference name, c =>
    if c = ';' then
      match referenced? name with
      | some d => (.text, some (.char d))
      | none => (.broken, none)
    else (.reference (name ++ [c]), none)
  | .bracket, c =>
    if c = '/' then (.closing [], none)
    else if c = '!' then (.declaration, none)
    else if c.isAlpha then (.opening [c], none)
    else (.broken, none)
  | .declaration, c =>
    if c = '>' then (.text, some .declaration)
    else if c.isAlpha || c == ' ' then (.declaration, none)
    else (.broken, none)
  | .closing name, c =>
    if c = '>' then (.text, some (.closing (String.ofList name)))
    else if isTagChar c then (.closing (name ++ [c]), none)
    else (.broken, none)
  | .opening name, c =>
    if isTagChar c then (.opening (name ++ [c]), none) else Tag.step ⟨name, []⟩ c
  | .inside tag, c => if isAttributeChar c then (.attribute tag [c], none) else tag.step c
  | .attribute tag name, c =>
    if c = '=' then (.equals tag name, none)
    else if isAttributeChar c then (.attribute tag (name ++ [c]), none)
    else (.broken, none)
  | .equals tag name, c => if c = '"' then (.value tag name [], none) else (.broken, none)
  | .value tag name held, c =>
    if c = '"' then (.behindValue (tag.add name held), none)
    else if c = '&' then (.valueReference tag name held [], none)
    else (.value tag name (held ++ [c]), none)
  | .valueReference tag name held ref, c =>
    if c = ';' then
      match referenced? ref with
      | some d => (.value tag name (held ++ [d]), none)
      | none => (.broken, none)
    else (.valueReference tag name held (ref ++ [c]), none)
  | .behindValue tag, c => tag.step c
  | .slash tag, c => if c = '>' then (.text, some tag.opening) else (.broken, none)
  | .broken, _ => (.broken, none)

/-- **Reads a text**: gives what the reader comes past, and where it is at the end. -/
def scan (state : State) : List Char → List Event × State
  | [] => ([], state)
  | c :: cs =>
    let (events, last) := scan (state.step c).1 cs
    ((state.step c).2.toList ++ events, last)

/-- A text that takes a reader from one place to another. -/
def Moves (first : State) (cs : List Char) (events : List Event) (last : State) : Prop :=
  scan first cs = (events, last)

/-- A text that is read as a whole. -/
def Reads (s : String) (events : List Event) : Prop :=
  Moves .text s.toList events .text

section Moves

variable {first middle last : State} {cs ds : List Char} {events more : List Event}

theorem moves_nil (state : State) : Moves state [] [] state :=
  rfl

theorem moves_cons {c : Char} {event : Option Event} (hstep : first.step c = (middle, event))
    (h : Moves middle cs events last) : Moves first (c :: cs) (event.toList ++ events) last := by
  rw [Moves, scan, hstep, h]

/-- One text after another. -/
theorem Moves.append (h : Moves first cs events middle) (hmore : Moves middle ds more last) :
    Moves first (cs ++ ds) (events ++ more) last := by
  induction cs generalizing first events with
  | nil =>
    obtain ⟨rfl, rfl⟩ := Prod.mk.inj h
    exact hmore
  | cons c cs ih =>
    have hrest : Moves (first.step c).1 cs (scan (first.step c).1 cs).1 middle :=
      Prod.ext rfl (Prod.mk.inj h).2
    rw [← (Prod.mk.inj h).1, List.append_assoc]
    exact moves_cons rfl (ih hrest)

/-- The places between the parts of a text. -/
theorem Moves.split (h : Moves first (cs ++ ds) events last) :
    ∃ middle front back, Moves first cs front middle ∧ Moves middle ds back last ∧
      events = front ++ back := by
  have hfront : Moves first cs (scan first cs).1 (scan first cs).2 := rfl
  have hparts := hfront.append (show Moves (scan first cs).2 ds _ _ from rfl)
  rw [Moves, h] at hparts
  obtain ⟨hevents, hlast⟩ := Prod.mk.inj hparts
  exact ⟨_, _, _, rfl, Prod.ext rfl hlast.symm, hevents⟩

theorem Moves.single {c : Char} (hstep : first.step c = (last, none)) : Moves first [c] [] last :=
  moves_cons hstep (moves_nil last)

/-- Characters that only add to what a reader holds. -/
theorem moves_held {holding : List Char → State} {p : Char → Bool}
    (hstep : ∀ held c, p c = true → (holding held).step c = (holding (held ++ [c]), none))
    (hall : ∀ c ∈ cs, p c = true) (held : List Char) :
    Moves (holding held) cs [] (holding (held ++ cs)) := by
  induction cs generalizing held with
  | nil => simpa using moves_nil (holding held)
  | cons c cs ih =>
    have hrest := ih (fun d hd => hall d (.tail c hd)) (held ++ [c])
    rw [List.append_assoc, List.singleton_append] at hrest
    exact moves_cons (hstep held c (hall c (.head cs))) hrest

end Moves

/-! ### Places outside of text -/

/-- Only the ends of tags and references lead into text. -/
theorem step_ne_text {state : State} {c : Char} (hstate : state ≠ .text)
    (hc : c ≠ '>' ∧ c ≠ ';') :
    (state.step c).1 ≠ .text := by
  have htag : ∀ tag : Tag, (tag.step c).1 ≠ .text := by
    intro tag
    rw [Tag.step, if_neg hc.1]
    split <;> (try split) <;> simp
  cases state with
  | text => exact absurd rfl hstate
  | opening name =>
    rw [State.step]
    split
    · simp
    · exact htag _
  | inside tag =>
    rw [State.step]
    split
    · simp
    · exact htag tag
  | behindValue tag => exact htag tag
  | _ => simp only [State.step, hc.1, hc.2, if_false]; (repeat' split) <;> simp

theorem Moves.ne_text {first last : State} {cs : List Char} {events : List Event}
    (h : Moves first cs events last) (hfirst : first ≠ .text)
    (hcs : ∀ c ∈ cs, c ≠ '>' ∧ c ≠ ';') : last ≠ .text := by
  induction cs generalizing first events with
  | nil => exact (Prod.mk.inj h).2 ▸ hfirst
  | cons c cs ih =>
    have hrest : Moves (first.step c).1 cs (scan (first.step c).1 cs).1 last :=
      Prod.ext rfl (Prod.mk.inj h).2
    exact ih hrest (step_ne_text hfirst (hcs c (.head cs))) fun d hd => hcs d (.tail c hd)

/-! ### Escaped texts -/

theorem step_text {c : Char} (hbracket : c ≠ '<') (hreference : c ≠ '&') :
    State.text.step c = (.text, some (.char c)) := by
  rw [State.step, if_neg hbracket, if_neg hreference]

/-- Characters that mean themselves in text. -/
theorem moves_plain {cs : List Char} (hplain : ∀ c ∈ cs, c ≠ '<' ∧ c ≠ '&') :
    Moves .text cs (cs.map .char) .text := by
  induction cs with
  | nil => exact moves_nil _
  | cons c cs ih =>
    have hc := hplain c (.head cs)
    exact moves_cons (step_text hc.1 hc.2) (ih fun d hd => hplain d (.tail c hd))

/-- An escaped character is read as the character that is meant. -/
theorem moves_markupChar (c : Char) : Moves .text (Text.markupChar c) [.char c] .text := by
  unfold Text.markupChar
  split
  all_goals try rfl
  next hreference hbracket _ _ _ => exact moves_cons (step_text hbracket hreference) (moves_nil _)

/-- **An escaped text is read as it is meant.** -/
theorem reads_markup (s : String) : Reads (Text.markup s) (s.toList.map .char) := by
  rw [Reads, Text.markup, String.toList_ofList]
  induction s.toList with
  | nil => exact moves_nil _
  | cons c cs ih => exact (moves_markupChar c).append ih

/-- A text that is **quoted**: in the value of an attribute it adds to the value and does not end
it. -/
def Quotes (s : String) (added : List Char) : Prop :=
  ∀ tag name value, Moves (.value tag name value) s.toList [] (.value tag name (value ++ added))

theorem quotes_empty : Quotes "" [] := by
  intro tag name value
  rw [List.append_nil]
  exact moves_nil _

theorem Quotes.append {s t : String} {added more : List Char} (h : Quotes s added)
    (hmore : Quotes t more) : Quotes (s ++ t) (added ++ more) := by
  intro tag name value
  rw [String.toList_append, ← List.append_assoc]
  exact (h tag name value).append (hmore tag name (value ++ added))

/-- Characters that mean themselves in the value of an attribute. -/
theorem quotes_plain {s : String} (hplain : ∀ c ∈ s.toList, c ≠ '"' ∧ c ≠ '&') :
    Quotes s s.toList := by
  intro tag name value
  refine moves_held (p := fun c => c != '"' && c != '&') ?_ (by simpa using hplain) value
  intro held c hc
  rw [Bool.and_eq_true, bne_iff_ne, bne_iff_ne] at hc
  rw [State.step, if_neg hc.1, if_neg hc.2]

theorem quotes_markupChar (c : Char) : Quotes (String.ofList (Text.markupChar c)) [c] := by
  unfold Text.markupChar
  split
  all_goals try exact fun _ _ _ => rfl
  next hreference _ _ hquote _ =>
    have hplain : ∀ d ∈ (String.ofList [c]).toList, d ≠ '"' ∧ d ≠ '&' := by
      simpa using And.intro hquote hreference
    simpa using quotes_plain hplain

/-- **An escaped value is read as it is meant.** -/
theorem quotes_markup (s : String) : Quotes (Text.markup s) s.toList := by
  have hall : ∀ cs : List Char, Quotes (String.ofList (cs.flatMap Text.markupChar)) cs := by
    intro cs
    induction cs with
    | nil => exact quotes_empty
    | cons c cs ih =>
      rw [List.flatMap_cons, String.ofList_append]
      exact (quotes_markupChar c).append ih
  exact hall s.toList

/-! ### Tags -/

/-- A reader who is **ready** for what may follow in the given tag. -/
def Ready (state : State) (tag : Tag) : Prop :=
  ∀ c, isTagChar c = false → state.step c = tag.step c

/-- A text that adds attributes to the tag it stands in. -/
def Attributes (s : String) (added : List (String × String)) : Prop :=
  ∀ ⦃state tag⦄, Ready state tag → ∃ last,
    Ready last { tag with attributes := tag.attributes ++ added } ∧ Moves state s.toList [] last

theorem ready_opening (name : List Char) : Ready (.opening name) ⟨name, []⟩ := by
  intro c hc
  rw [State.step, hc]
  rfl

theorem ready_behindValue (tag : Tag) : Ready (.behindValue tag) tag :=
  fun _ _ => rfl

theorem attributes_empty : Attributes "" [] := by
  intro state tag hready
  exact ⟨state, by simpa using hready, moves_nil state⟩

theorem Attributes.append {s t : String} {added more : List (String × String)}
    (h : Attributes s added) (hmore : Attributes t more) : Attributes (s ++ t) (added ++ more) := by
  intro state tag hready
  obtain ⟨middle, hmiddle, hmoves⟩ := h hready
  obtain ⟨last, hlast, hrest⟩ := hmore hmiddle
  refine ⟨last, by simpa using hlast, ?_⟩
  rw [String.toList_append]
  exact hmoves.append hrest

/-- A quoted value is the value of its attribute. -/
theorem attributes_quoted {name s : String} {added : List Char} (hname : isAttribute name = true)
    (hquotes : Quotes s added) :
    Attributes (" " ++ name ++ "=\"" ++ s ++ "\"") [(name, String.ofList added)] := by
  intro state tag hready
  rw [isAttribute, Bool.and_eq_true, Bool.not_eq_true', List.all_eq_true] at hname
  obtain ⟨hne, hall⟩ := hname
  refine ⟨.behindValue (tag.add name.toList added), ?_, ?_⟩
  · rw [Tag.add, String.ofList_toList]
    exact ready_behindValue _
  · have hblank : Moves state [' '] [] (.inside tag) := Moves.single (hready ' ' rfl)
    have hnamed : Moves (.inside tag) name.toList [] (.attribute tag name.toList) := by
      obtain ⟨c, cs, hcs⟩ := List.exists_cons_of_ne_nil (List.isEmpty_eq_false_iff.mp hne)
      rw [hcs] at hall ⊢
      have hfirst : (State.inside tag).step c = (.attribute tag [c], none) := by
        rw [State.step, if_pos (hall c (.head cs))]
      refine moves_cons hfirst (moves_held ?_ (fun d hd => hall d (.tail c hd)) [c])
      intro held d hd
      have hequals : d ≠ '=' := by
        rintro rfl
        exact absurd hd (by decide)
      rw [State.step, if_neg hequals, if_pos hd]
    have hequals : Moves (.attribute tag name.toList) ['=', '"'] [] (.value tag name.toList []) :=
      rfl
    have hend : Moves (.value tag name.toList added) ['"'] []
        (.behindValue (tag.add name.toList added)) := rfl
    have hwhole := (((hblank.append hnamed).append hequals).append
      (hquotes tag name.toList [])).append hend
    simpa using hwhole

theorem printAttributes_cons (name value : String) (attributes : List (String × String)) :
    Html.printAttributes ((name, value) :: attributes)
      = " " ++ name ++ "=\"" ++ Text.markup value ++ "\"" ++ Html.printAttributes attributes := by
  rw [Html.printAttributes, List.map_cons, String.join_cons, Html.printAttributes]

/-- **The attributes of a tag** are read as they are meant. -/
theorem attributes_printAttributes {attributes : List (String × String)}
    (hnames : ∀ a ∈ attributes, isAttribute a.1 = true) :
    Attributes (Html.printAttributes attributes) attributes := by
  induction attributes with
  | nil => exact attributes_empty
  | cons a attributes ih =>
    obtain ⟨name, value⟩ := a
    have hfirst := attributes_quoted (hnames _ (.head attributes)) (quotes_markup value)
    rw [String.ofList_toList] at hfirst
    have hrest := ih fun b hb => hnames b (.tail _ hb)
    rw [printAttributes_cons]
    exact hfirst.append hrest

/-- A reader at the name of a tag reads the name. -/
theorem moves_bracket {tag : String} (htag : isTag tag = true) :
    Moves .text ('<' :: tag.toList) [] (.opening tag.toList) := by
  rw [isTag, Bool.and_eq_true, List.all_eq_true] at htag
  obtain ⟨hfirst, hall⟩ := htag
  cases hcs : tag.toList with
  | nil =>
    rw [hcs] at hfirst
    exact absurd hfirst (by decide)
  | cons c cs =>
    rw [hcs] at hfirst hall
    have halpha : c.isAlpha = true := hfirst
    have hslash : c ≠ '/' := by
      rintro rfl
      exact absurd halpha (by decide)
    have hmark : c ≠ '!' := by
      rintro rfl
      exact absurd halpha (by decide)
    have hstep : State.bracket.step c = (.opening [c], none) := by
      rw [State.step, if_neg hslash, if_neg hmark, if_pos halpha]
    refine moves_cons (show State.text.step '<' = (.bracket, none) from rfl)
      (moves_cons hstep (moves_held ?_ (fun d hd => hall d (.tail c hd)) [c]))
    intro held d hd
    rw [State.step, if_pos hd]

/-- **An opening tag** is read as it is meant. -/
theorem reads_opening {tag s : String} {attributes : List (String × String)}
    (htag : isTag tag = true) (h : Attributes s attributes) :
    Reads ("<" ++ tag ++ s ++ ">") [.opening tag attributes] := by
  obtain ⟨last, hready, hmoves⟩ := h (ready_opening tag.toList)
  rw [List.nil_append] at hready
  have hend : Moves last ['>'] [.opening tag attributes] .text := by
    have hstep : last.step '>' = (.text, some (.opening tag attributes)) := by
      rw [hready '>' rfl]
      simp [Tag.step, Tag.opening]
    exact moves_cons hstep (moves_nil _)
  have hwhole := ((moves_bracket htag).append hmoves).append hend
  simpa [Reads] using hwhole

/-- **A closing tag** is read as it is meant. -/
theorem reads_closing {tag : String} (htag : isTag tag = true) :
    Reads ("</" ++ tag ++ ">") [.closing tag] := by
  rw [isTag, Bool.and_eq_true, List.all_eq_true] at htag
  have hname : Moves (.closing []) tag.toList [] (.closing tag.toList) := by
    refine moves_held (p := isTagChar) ?_ htag.2 []
    intro held c hc
    have hend : c ≠ '>' := by
      rintro rfl
      exact absurd hc (by decide)
    rw [State.step, if_neg hend, if_pos hc]
  have hstart : Moves .text ['<', '/'] [] (.closing []) := rfl
  have hend : Moves (.closing tag.toList) ['>'] [.closing tag] .text := by
    have hstep : (State.closing tag.toList).step '>' = (.text, some (.closing tag)) := by
      simp [State.step]
    exact moves_cons hstep (moves_nil _)
  have hwhole := (hstart.append hname).append hend
  simpa [Reads] using hwhole

/-- Escaped text and an escaped value between tags. -/
example : scan .text "<b title=\"&quot;x&quot;\">1 &lt; 2</b>".toList =
    (Event.opening "b" [("title", "\"x\"")] :: "1 < 2".toList.map .char ++ [Event.closing "b"],
      .text) := by
  decide

end PhpHandbook.Markup
