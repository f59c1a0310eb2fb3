import PhpHandbook.Proofs.MarkdownParagraphs

/-!
# Documents are whole

Whatever a comment says, the HTML that is made of it is a fragment, and no tag of a paragraph in it
has attributes.  The writer closes what it opens because it goes through a tree, and the characters
that come from the comment are escaped, in text, in titles and in addresses.

## Main definitions

* `Quoted`: a text that stays within the value of an attribute.
* `Writes`, `Whole`: a text with the tags that are open before and behind it.
* `Opens`: the front of a tag up to some place in the value of an attribute.
* `Leads`: what is written between two outputs, with the tags that are open before and behind it.

## Main statements

* `whole_inlineHtml`: the content of a line, by induction over its emphasis and links.
* `leads_writeBlock`: a block, by induction over its quotes and lists.
* `renders_toHtml`: the HTML of documents can be relied on.
-/

namespace PhpHandbook.Markdown

open Markup

/-! ### Whole texts -/

/-- A text in which paragraphs have no attributes, whatever follows. -/
def Plain (s : String) : Prop :=
  ∀ cs, plainParagraphs cs = true → plainParagraphs (s.toList ++ cs) = true

theorem Plain.append {s t : String} (h : Plain s) (hmore : Plain t) : Plain (s ++ t) := by
  intro cs hcs
  rw [String.toList_append, List.append_assoc]
  exact h _ (hmore cs hcs)

/-- Nothing is a tag without a bracket. -/
theorem plain_of_not_mem {s : String} (h : '<' ∉ s.toList) : Plain s := by
  intro cs hcs
  generalize s.toList = front at h
  induction front with
  | nil => exact hcs
  | cons c front ih =>
    have hother : (c != '<') = true := bne_iff_ne.2 fun hbracket => h (hbracket ▸ .head front)
    rw [List.cons_append, plainParagraphs, hother, ih fun hmem => h (.tail c hmem)]
    rfl

/-- A text that leads from some open tags to others, and in which paragraphs have no attributes. -/
def Writes (s : String) (before after : List String) : Prop :=
  ∃ events, Reads s events ∧ unclosed before events = some after ∧ Plain s

/-- A **whole** text closes in order the tags that it opens, and no others. -/
def Whole (s : String) : Prop :=
  ∀ stack, Writes s stack stack

theorem Writes.append {s t : String} {before middle after : List String}
    (h : Writes s before middle) (hmore : Writes t middle after) :
    Writes (s ++ t) before after := by
  obtain ⟨events, hreads, hunclosed, hplain⟩ := h
  obtain ⟨more, hreads', hunclosed', hplain'⟩ := hmore
  obtain ⟨all, hall, hlast⟩ :=
    Takes.append ⟨events, hreads, hunclosed⟩ ⟨more, hreads', hunclosed'⟩
  exact ⟨all, hall, hlast, hplain.append hplain'⟩

theorem whole_empty : Whole "" :=
  fun _ => ⟨[], rfl, rfl, fun _ h => h⟩

theorem Whole.append {s t : String} (h : Whole s) (hmore : Whole t) : Whole (s ++ t) :=
  fun stack => (h stack).append (hmore stack)

theorem whole_join {parts : List String} (hparts : ∀ s ∈ parts, Whole s) :
    Whole (String.join parts) := by
  induction parts with
  | nil => exact whole_empty
  | cons s parts ih =>
    rw [String.join_cons]
    exact (hparts s (.head parts)).append (ih fun t ht => hparts t (.tail s ht))

/-- A whole text between tags. -/
theorem Whole.within {front s back : String} (opened : List String) (h : Whole s)
    (hfront : ∀ stack, Writes front stack (opened ++ stack))
    (hback : ∀ stack, Writes back (opened ++ stack) stack) : Whole (front ++ s ++ back) :=
  fun stack => ((hfront stack).append (h (opened ++ stack))).append (hback stack)

/-! ### Characters -/

/-- Characters that mean themselves. -/
theorem whole_plain {s : String} (hplain : ∀ c ∈ s.toList, c ≠ '<' ∧ c ≠ '&') : Whole s :=
  fun stack => ⟨_, moves_plain hplain, unclosed_chars stack s.toList,
    plain_of_not_mem fun hbracket => (hplain _ hbracket).1 rfl⟩

theorem whole_textChar (c : Char) : Whole (textChar c) := by
  unfold textChar
  split
  all_goals try exact fun stack => ⟨_, rfl, rfl, fun _ h => h⟩
  next hreference hbracket _ =>
    exact whole_plain (by simpa using And.intro hbracket hreference)

theorem whole_texts (cs : List Char) : Whole (String.join (cs.map textChar)) :=
  whole_join (List.forall_mem_map.mpr fun c _ => whole_textChar c)

/-- A text that adds something to the value of the attribute it stands in. -/
def Quoted (s : String) : Prop :=
  (∃ added, Quotes s added) ∧ '<' ∉ s.toList

theorem quoted_empty : Quoted "" :=
  ⟨⟨[], quotes_empty⟩, by decide⟩

theorem Quoted.append {s t : String} (h : Quoted s) (hmore : Quoted t) : Quoted (s ++ t) := by
  obtain ⟨⟨added, hs⟩, hplain⟩ := h
  obtain ⟨⟨more, ht⟩, hplain'⟩ := hmore
  exact ⟨⟨_, hs.append ht⟩, by simp [hplain, hplain']⟩

theorem quoted_join {parts : List String} (hparts : ∀ s ∈ parts, Quoted s) :
    Quoted (String.join parts) := by
  induction parts with
  | nil => exact quoted_empty
  | cons s parts ih =>
    rw [String.join_cons]
    exact (hparts s (.head parts)).append (ih fun t ht => hparts t (.tail s ht))

theorem quoted_plain {s : String}
    (hplain : ∀ c ∈ s.toList, c ≠ '"' ∧ c ≠ '&' ∧ c ≠ '<') :
    Quoted s :=
  ⟨⟨s.toList, quotes_plain fun c hc => ⟨(hplain c hc).1, (hplain c hc).2.1⟩⟩,
    fun hbracket => (hplain _ hbracket).2.2 rfl⟩

theorem quoted_attributeChar (c : Char) : Quoted (attributeChar c) := by
  unfold attributeChar
  split
  · exact ⟨⟨_, fun _ _ _ => rfl⟩, by decide⟩
  · exact ⟨⟨_, fun _ _ _ => rfl⟩, by decide⟩
  next hquote _ =>
    unfold textChar
    split
    all_goals try exact ⟨⟨_, fun _ _ _ => rfl⟩, by decide⟩
    next hreference hbracket _ =>
      exact quoted_plain (by simpa using And.intro hquote (And.intro hreference hbracket))

theorem quoted_attributes (cs : List Char) : Quoted (String.join (cs.map attributeChar)) :=
  quoted_join (List.forall_mem_map.mpr fun c _ => quoted_attributeChar c)

/-- A byte is written with digits and letters. -/
theorem quoted_percentByte (b : UInt8) : Quoted (percentByte b) := by
  have hdigit : ∀ n < 16, (Nat.digitChar n).toUpper ≠ '"' ∧
      (Nat.digitChar n).toUpper ≠ '&' ∧
      (Nat.digitChar n).toUpper ≠ '<' := by
    decide
  have hlow := hdigit (b.toNat % 16) (Nat.mod_lt _ (by decide))
  have hhigh := hdigit (b.toNat / 16) (Nat.div_lt_of_lt_mul b.toNat_lt)
  apply quoted_plain
  simp only [percentByte, String.toList_ofList, List.mem_cons, List.not_mem_nil, or_false]
  rintro c (rfl | rfl | rfl)
  · decide
  · exact hhigh
  · exact hlow

theorem quoted_addressChar (c : Char) : Quoted (addressChar c) := by
  unfold addressChar
  split
  · exact ⟨⟨_, fun _ _ _ => rfl⟩, by decide⟩
  · split
    · exact ⟨⟨_, fun _ _ _ => rfl⟩, by decide⟩
    · split
      next hreference _ haddress =>
        have hquote : c ≠ '"' := by
          rintro rfl
          exact absurd haddress (by decide)
        have hbracket : c ≠ '<' := by
          rintro rfl
          exact absurd haddress (by decide)
        exact quoted_plain (by simpa using And.intro hquote (And.intro hreference hbracket))
      · exact quoted_join (List.forall_mem_map.mpr fun b _ => quoted_percentByte b)

theorem quoted_address (url : List Char) : Quoted (address url) :=
  quoted_join (List.forall_mem_map.mpr fun c _ => quoted_addressChar c)

mutual

theorem quoted_altText : ∀ i : Inline, Quoted (altText i)
  | .text cs => quoted_attributes cs
  | .code cs => quoted_attributes cs
  | .softBreak => ⟨⟨_, fun _ _ _ => rfl⟩, by decide⟩
  | .hardBreak => ⟨⟨_, fun _ _ _ => rfl⟩, by decide⟩
  | .emphasis content => quoted_altTexts content
  | .strong content => quoted_altTexts content
  | .struck content => quoted_altTexts content
  | .link _ content => quoted_altTexts content
  | .mail mailbox => quoted_attributes mailbox
  | .image _ content => quoted_altTexts content

theorem quoted_altTexts : ∀ content : List Inline, Quoted (altTexts content)
  | [] => quoted_empty
  | i :: rest => (quoted_altText i).append (quoted_altTexts rest)

end

/-! ### Tags with values -/

/-- A text that ends in the value of an attribute of a tag it has started. -/
def Opens (tag s : String) : Prop :=
  Plain s ∧ ∃ name held, ∃ t : Tag, t.name = tag.toList ∧
    Moves .text s.toList [] (.value t name held)

namespace Opens

variable {tag s : String}

theorem quoted (h : Opens tag s) {t : String} (hquoted : Quoted t) : Opens tag (s ++ t) := by
  obtain ⟨hplain, name, held, part, hname, hmoves⟩ := h
  obtain ⟨⟨added, hquotes⟩, hfree⟩ := hquoted
  refine ⟨hplain.append (plain_of_not_mem hfree), name, held ++ added, part, hname, ?_⟩
  rw [String.toList_append]
  exact hmoves.append (hquotes part name held)

/-- The value ends and another attribute starts. -/
theorem next (h : Opens tag s) (start : String) (label : List Char)
    (hstart : ∀ t name held,
      Moves (.value t name held) start.toList [] (.value (t.add name held) label []))
    (hfree : '<' ∉ start.toList) : Opens tag (s ++ start) := by
  obtain ⟨hplain, name, held, part, hname, hmoves⟩ := h
  refine ⟨hplain.append (plain_of_not_mem hfree), label, [], part.add name held, hname, ?_⟩
  rw [String.toList_append]
  exact hmoves.append (hstart part name held)

theorem titleText (h : Opens tag s) (target : Target) : Opens tag (s ++ titleText target) := by
  unfold Markdown.titleText
  split
  · simpa using h
  · rw [← String.append_assoc]
    have hstart := h.next "\" title=\"" "title".toList (fun _ _ _ => rfl) (by decide)
    exact hstart.quoted (quoted_attributes target.title)

/-- The tag ends. -/
theorem writes (h : Opens tag s) (hclosed : isVoid tag = false) (stack : List String) :
    Writes (s ++ "\">") stack (tag :: stack) := by
  obtain ⟨hplain, name, held, part, hname, hmoves⟩ := h
  refine ⟨[(part.add name held).opening], ?_, ?_, hplain.append fun _ h => h⟩
  · rw [Reads, String.toList_append]
    exact hmoves.append rfl
  · have htag : String.ofList part.name = tag := by rw [hname, String.ofList_toList]
    simp [unclosed, Event.unclosed, Tag.opening, Tag.add, htag, hclosed]

theorem writes_void (h : Opens tag s) (hvoid : isVoid tag = true) : Whole (s ++ "\" />") := by
  intro stack
  obtain ⟨hplain, name, held, part, hname, hmoves⟩ := h
  refine ⟨[(part.add name held).opening], ?_, ?_, hplain.append fun _ h => h⟩
  · rw [Reads, String.toList_append]
    exact hmoves.append rfl
  · have htag : String.ofList part.name = tag := by rw [hname, String.ofList_toList]
    simp [unclosed, Event.unclosed, Tag.opening, Tag.add, htag, hvoid]

end Opens

/-! ### Content -/

mutual

theorem whole_inlineHtml : ∀ i : Inline, Whole (inlineHtml i)
  | .text cs => whole_texts cs
  | .code cs =>
    (whole_texts cs).within ["code"] (fun _ => ⟨_, rfl, rfl, fun _ h => h⟩)
      (fun _ => ⟨_, rfl, rfl, fun _ h => h⟩)
  | .softBreak => fun _ => ⟨_, rfl, rfl, fun _ h => h⟩
  | .hardBreak => fun _ => ⟨_, rfl, rfl, fun _ h => h⟩
  | .emphasis content =>
    (whole_inlinesHtml content).within ["em"] (fun _ => ⟨_, rfl, rfl, fun _ h => h⟩)
      (fun _ => ⟨_, rfl, rfl, fun _ h => h⟩)
  | .strong content =>
    (whole_inlinesHtml content).within ["strong"] (fun _ => ⟨_, rfl, rfl, fun _ h => h⟩)
      (fun _ => ⟨_, rfl, rfl, fun _ h => h⟩)
  | .struck content =>
    (whole_inlinesHtml content).within ["del"] (fun _ => ⟨_, rfl, rfl, fun _ h => h⟩)
      (fun _ => ⟨_, rfl, rfl, fun _ h => h⟩)
  | .link target content => by
    have hstart : Opens "a" "<a href=\"" :=
      ⟨fun _ h => h, "href".toList, [], ⟨"a".toList, []⟩, rfl, rfl⟩
    have hopens := (hstart.quoted (quoted_address target.url)).titleText target
    exact (whole_inlinesHtml content).within ["a"] (hopens.writes rfl)
      fun _ => ⟨_, rfl, rfl, fun _ h => h⟩
  | .mail mailbox => by
    have hstart : Opens "a" "<a href=\"mailto:" :=
      ⟨fun _ h => h, "href".toList, "mailto:".toList, ⟨"a".toList, []⟩, rfl, rfl⟩
    have hopens := hstart.quoted (quoted_address mailbox)
    exact (whole_texts mailbox).within ["a"] (hopens.writes rfl)
      fun _ => ⟨_, rfl, rfl, fun _ h => h⟩
  | .image target content => by
    have hstart : Opens "img" "<img src=\"" :=
      ⟨fun _ h => h, "src".toList, [], ⟨"img".toList, []⟩, rfl, rfl⟩
    have haddress := hstart.quoted (quoted_address target.url)
    have halt := haddress.next "\" alt=\"" "alt".toList (fun _ _ _ => rfl) (by decide)
    exact ((halt.quoted (quoted_altTexts content)).titleText target).writes_void rfl

theorem whole_inlinesHtml : ∀ content : List Inline, Whole (inlinesHtml content)
  | [] => whole_empty
  | i :: rest => (whole_inlineHtml i).append (whole_inlinesHtml rest)

end

theorem whole_contentHtml (targets : Targets) (cs : List Char) :
    Whole (contentHtml targets cs) :=
  whole_inlinesHtml _

/-! ### Parts of blocks -/

theorem isDigit_of_mem_toString {n : Nat} {c : Char} (hc : c ∈ (toString n).toList) :
    c.isDigit = true := by
  rw [Nat.toString_eq_repr, Nat.toList_repr] at hc
  exact Nat.isDigit_of_mem_toDigits (by decide) (by decide) hc

theorem quoted_number (n : Nat) : Quoted (toString n) := by
  apply quoted_plain
  intro c hc
  have hdigit := isDigit_of_mem_toString hc
  refine ⟨?_, ?_, ?_⟩ <;>
    · rintro rfl
      exact absurd hdigit (by decide)

theorem whole_taskHtml : ∀ task : Option Bool, Whole (taskHtml task)
  | none => whole_empty
  | some true => fun _ => ⟨_, rfl, rfl, fun _ h => h⟩
  | some false => fun _ => ⟨_, rfl, rfl, fun _ h => h⟩

/-- The tag of a heading. -/
def headingTag (level : Nat) : String :=
  "h" ++ toString level

theorem isTag_headingTag (level : Nat) : isTag (headingTag level) = true := by
  have hall : ∀ c ∈ (toString level).toList, isTagChar c = true := by
    intro c hc
    rw [isTagChar, Char.isAlphanum, isDigit_of_mem_toString hc, Bool.or_true]
  simpa [isTag, headingTag] using And.intro (by decide) hall

/-- The name of a heading holds a digit, and that of no tag without content does. -/
theorem isVoid_headingTag (level : Nat) : isVoid (headingTag level) = false := by
  have hletters : ∀ tag ∈ ["br", "hr", "img", "input", "meta"],
      tag.toList.all (!·.isDigit) = true := by decide
  obtain ⟨c, hc⟩ : ∃ c, c ∈ (toString level).toList := by
    rw [Nat.toString_eq_repr, Nat.toList_repr]
    exact List.exists_mem_of_ne_nil _ Nat.toDigits_ne_nil
  rw [isVoid, List.contains_eq_mem, decide_eq_false_iff_not]
  intro hmem
  have hc' : c ∈ (headingTag level).toList := by
    rw [headingTag, String.toList_append]
    exact List.mem_append_right _ hc
  have hletter := List.all_eq_true.mp (hletters _ hmem) c hc'
  rw [isDigit_of_mem_toString hc] at hletter
  exact absurd hletter (by decide)

theorem writes_headingOpening (level : Nat) (stack : List String) :
    Writes s!"<h{level}>" stack (headingTag level :: stack) := by
  have htext : "<h" ++ toString level ++ ">" = "<" ++ headingTag level ++ "" ++ ">" := by
    simp [headingTag, ← String.append_assoc]
  have hfront : Plain "<h" := fun _ h => h
  refine ⟨[.opening (headingTag level) []], ?_, ?_, ?_⟩
  · exact htext ▸ reads_opening (isTag_headingTag level) attributes_empty
  · simp [unclosed, Event.unclosed, isVoid_headingTag]
  · exact (hfront.append (plain_of_not_mem (quoted_number level).2)).append fun _ h => h

theorem writes_headingClosing (level : Nat) (stack : List String) :
    Writes s!"</h{level}>\n" (headingTag level :: stack) stack := by
  have hclosing : Writes ("</" ++ headingTag level ++ ">") (headingTag level :: stack) stack := by
    have hfront : Plain "</" := fun _ h => h
    have hname : '<' ∉ (headingTag level).toList := by
      simpa [headingTag] using (quoted_number level).2
    refine ⟨_, reads_closing (isTag_headingTag level), ?_, ?_⟩
    · simp [unclosed, Event.unclosed]
    · exact (hfront.append (plain_of_not_mem hname)).append fun _ h => h
  have hend : Writes "\n" stack stack := ⟨_, rfl, rfl, fun _ h => h⟩
  have htext : "</h" ++ toString level ++ ">\n" = "</" ++ headingTag level ++ ">" ++ "\n" := by
    rw [headingTag, ← String.append_assoc, String.append_assoc, String.append_assoc]
    rfl
  exact htext ▸ hclosing.append hend

/-- The opening of a block of code. -/
theorem writes_codeOpening (info : List Char) (stack : List String) :
    Writes (codeOpening info) stack ("code" :: "pre" :: stack) := by
  simp only [codeOpening]
  split
  · exact ⟨_, rfl, rfl, fun _ h => h⟩
  · have hstart : Opens "code" "<code class=\"language-" :=
      ⟨fun _ h => h, "class".toList, "language-".toList, ⟨"code".toList, []⟩, rfl, rfl⟩
    have hpre : Writes "<pre>" stack ("pre" :: stack) := ⟨_, rfl, rfl, fun _ h => h⟩
    have hcode := (hstart.quoted (quoted_attributes (info.takeWhile (· != ' ')))).writes rfl
      ("pre" :: stack)
    simpa [← String.append_assoc] using hpre.append hcode

/-- The tag of a list. -/
def listTag (number : Option Nat) : String :=
  if number.isSome then "ol" else "ul"

theorem writes_listOpening (number : Option Nat) (stack : List String) :
    Writes (listOpening number) stack (listTag number :: stack) := by
  cases number with
  | none => exact ⟨_, rfl, rfl, fun _ h => h⟩
  | some n =>
    rw [listOpening]
    split
    · exact ⟨_, rfl, rfl, fun _ h => h⟩
    · have hstart : Opens "ol" "<ol start=\"" :=
        ⟨fun _ h => h, "start".toList, [], ⟨"ol".toList, []⟩, rfl, rfl⟩
      have hend : Writes "\n" ("ol" :: stack) ("ol" :: stack) := ⟨_, rfl, rfl, fun _ h => h⟩
      have hwhole := ((hstart.quoted (quoted_number n)).writes rfl stack).append hend
      rwa [String.append_assoc] at hwhole

/-- The cells of a row, which are those of a head or of a body. -/
theorem whole_cellsHtml (targets : Targets) {tag : String} (htag : tag = "th" ∨ tag = "td")
    (columns : List Alignment) (cells : List (List Char)) :
    Whole (cellsHtml targets tag columns cells) := by
  have hopening : ∀ a stack, Writes (cellOpening tag a) stack ([tag] ++ stack) := by
    intro a stack
    rcases htag with rfl | rfl <;> cases a <;> exact ⟨_, rfl, rfl, fun _ h => h⟩
  have hclosing : ∀ stack, Writes ("</" ++ tag ++ ">") ([tag] ++ stack) stack := by
    intro stack
    rcases htag with rfl | rfl <;> exact ⟨_, rfl, rfl, fun _ h => h⟩
  have hcell : ∀ a cell,
      Whole (cellOpening tag a ++ contentHtml targets cell ++ "</" ++ tag ++ ">") := by
    intro a cell
    simpa [String.append_assoc] using
      (whole_contentHtml targets cell).within [tag] (hopening a) hclosing
  refine whole_join fun s hs => ?_
  obtain ⟨i, hi, rfl⟩ := List.mem_iff_getElem.mp hs
  rw [List.getElem_zipWith]
  exact hcell _ _

theorem whole_tableHtml (targets : Targets) (columns : List Alignment) :
    ∀ rows : List (List (List Char)), Whole (tableHtml targets columns rows)
  | [] => whole_empty
  | head :: rows => by
    have hhead := whole_cellsHtml targets (.inl rfl) columns head
    have hrows : Whole (String.join (rows.map fun row =>
        "<tr>" ++ cellsHtml targets "td" columns row ++ "</tr>\n")) :=
      whole_join (List.forall_mem_map.mpr fun row _ =>
        (whole_cellsHtml targets (.inr rfl) columns row).within ["tr"]
          (fun _ => ⟨_, rfl, rfl, fun _ h => h⟩)
      (fun _ => ⟨_, rfl, rfl, fun _ h => h⟩))
    intro stack
    have hfront : Writes "<table><thead><tr>" stack ("tr" :: "thead" :: "table" :: stack) :=
      ⟨_, rfl, rfl, fun _ h => h⟩
    have hmiddle : Writes "</tr></thead><tbody>\n" ("tr" :: "thead" :: "table" :: stack)
        ("tbody" :: "table" :: stack) := ⟨_, rfl, rfl, fun _ h => h⟩
    have hback : Writes "</tbody></table>\n" ("tbody" :: "table" :: stack) stack :=
      ⟨_, rfl, rfl, fun _ h => h⟩
    exact (((hfront.append (hhead _)).append hmiddle).append (hrows _)).append hback

/-! ### Blocks -/

/-- What is written goes on with a text that leads from some open tags to others. -/
def Leads (before after : List String) (out last : Output) : Prop :=
  ∃ s, Writes s before after ∧ last.text = out.text ++ s

section Leads

variable {before middle after : List String} {out mid last : Output} {s : String}

theorem leads_refl (stack : List String) (out : Output) : Leads stack stack out out :=
  ⟨"", whole_empty stack, by simp⟩

theorem Leads.trans (h : Leads before middle out mid) (hmore : Leads middle after mid last) :
    Leads before after out last := by
  obtain ⟨s, hs, htext⟩ := h
  obtain ⟨t, ht, hlast⟩ := hmore
  exact ⟨s ++ t, hs.append ht, by rw [hlast, htext, String.append_assoc]⟩

theorem text_write (out : Output) (s : String) : (out.write s).text = out.text ++ s := by
  unfold Output.write
  split
  next => rfl
  next hlast =>
    have hempty : s = "" := String.toList_eq_nil_iff.mp (List.getLast?_eq_none_iff.mp hlast)
    simp [hempty]

theorem leads_write (h : Writes s before after) : Leads before after out (out.write s) :=
  ⟨s, h, text_write out s⟩

theorem leads_writeFresh (h : Writes s before after) :
    Leads before after out (out.writeFresh s) := by
  unfold Output.writeFresh
  split
  · exact leads_write h
  · have hend : Writes "\n" before before := ⟨_, rfl, rfl, fun _ h => h⟩
    exact (leads_write hend).trans (leads_write h)

end Leads

mutual

/-- A block closes what it opens. -/
theorem leads_writeBlock (targets : Targets) (tight : Bool) (task : Option Bool) (out : Output)
    (stack : List String) :
    ∀ b : Block, Leads stack stack out (writeBlock targets tight task out b)
  | .paragraph text => by
    have hcontent := whole_contentHtml targets text
    rw [writeBlock]
    split
    · exact (leads_write (whole_taskHtml task stack)).trans (leads_write (hcontent stack))
    · have hopening : Writes ("<p>" ++ taskHtml task) stack ("p" :: stack) :=
        Writes.append ⟨_, rfl, rfl, fun _ h => h⟩ (whole_taskHtml task ("p" :: stack))
      have hclosing : Writes "</p>\n" ("p" :: stack) stack := ⟨_, rfl, rfl, fun _ h => h⟩
      exact ((leads_writeFresh hopening).trans (leads_write (hcontent ("p" :: stack)))).trans
        (leads_write hclosing)
  | .heading level text =>
    (((leads_write (whole_taskHtml task stack)).trans
      (leads_writeFresh (writes_headingOpening level stack))).trans
      (leads_write (whole_contentHtml targets text _))).trans
      (leads_write (writes_headingClosing level stack))
  | .code info text => by
    have hclosing : Writes "</code></pre>\n" ("code" :: "pre" :: stack) stack :=
      ⟨_, rfl, rfl, fun _ h => h⟩
    exact ((leads_writeFresh (writes_codeOpening info stack)).trans
      (leads_write (whole_texts text _))).trans (leads_write hclosing)
  | .rule => by
    have hrule : Writes "<hr />\n" stack stack := ⟨_, rfl, rfl, fun _ h => h⟩
    exact leads_writeFresh hrule
  | .raw => leads_refl stack out
  | .quote content => by
    have hopening : Writes "<blockquote>\n" stack ("blockquote" :: stack) :=
      ⟨_, rfl, rfl, fun _ h => h⟩
    have hclosing : Writes "</blockquote>\n" ("blockquote" :: stack) stack :=
      ⟨_, rfl, rfl, fun _ h => h⟩
    exact ((leads_writeFresh hopening).trans
      (leads_writeBlocks targets false none _ _ content)).trans
      (leads_write hclosing)
  | .list number tight items => by
    have hclosing : Writes (if number.isSome then "</ol>\n" else "</ul>\n")
        (listTag number :: stack) stack := by
      cases number with
      | none => exact (⟨_, rfl, rfl, fun _ h => h⟩ : Writes "</ul>\n" ("ul" :: stack) stack)
      | some n => exact (⟨_, rfl, rfl, fun _ h => h⟩ : Writes "</ol>\n" ("ol" :: stack) stack)
    exact ((leads_writeFresh (writes_listOpening number stack)).trans
      (leads_writeItems targets tight _ _ items)).trans (leads_write hclosing)
  | .table columns rows => leads_write (whole_tableHtml targets columns rows stack)

theorem leads_writeBlocks (targets : Targets) (tight : Bool) (task : Option Bool) (out : Output)
    (stack : List String) :
    ∀ blocks : List Block, Leads stack stack out (writeBlocks targets tight task out blocks)
  | [] => leads_refl stack out
  | b :: rest =>
    (leads_writeBlock targets tight task out stack b).trans
      (leads_writeBlocks targets tight none _ stack rest)

theorem leads_writeItems (targets : Targets) (tight : Bool) (out : Output)
    (stack : List String) :
    ∀ items : List (Option Bool × List Block),
      Leads stack stack out (writeItems targets tight out items)
  | [] => leads_refl stack out
  | (task, content) :: rest => by
    have hopening : Writes "<li>" stack ("li" :: stack) := ⟨_, rfl, rfl, fun _ h => h⟩
    have hstart : Leads stack ("li" :: stack) out (out.writeFresh "<li>") :=
      leads_writeFresh hopening
    have hitem := hstart.trans (leads_writeBlocks targets tight task _ _ content)
    have hclosing : Writes "</li>\n" ("li" :: stack) stack := ⟨_, rfl, rfl, fun _ h => h⟩
    exact (hitem.trans (leads_write hclosing)).trans
      (leads_writeItems targets tight _ stack rest)

end

theorem whole_toHtml (text : String) : Whole (toHtml text) := by
  intro stack
  obtain ⟨s, hs, htext⟩ := leads_writeBlocks (readDocument text).2 false none {} stack
    (readDocument text).1
  have hhtml : toHtml text = "" ++ s := htext
  rwa [hhtml, String.empty_append]

/-- **The HTML of documents can be relied on.** -/
theorem renders_toHtml : Renders toHtml where
  fragment text stack := by
    obtain ⟨events, hreads, hunclosed, -⟩ := whole_toHtml text stack
    exact ⟨events, hreads, hunclosed⟩
  paragraphs text := by
    obtain ⟨-, -, -, hplain⟩ := whole_toHtml text []
    simpa using hplain [] rfl

end PhpHandbook.Markdown
