import Mathlib.Data.List.Induction
import Mathlib.Data.List.Nodup
import PhpHandbook.DocBlock.Document

/-!
# Tags sorted into a document

What a document says about each thing, told from the list of its tags.  What may be said once is
said by the first tag of its kind that is meant for an analysis tool, or by the first one at all
where no tag of the kind is meant for a tool.  For parameters that holds name by name, and the names
stand in the order of their first tags.  What a parameter holds after the call and whether a thing
is deprecated is said by the first tag.  Everything else is kept, in order.

The document is built tag by tag, with a mark beside every slot and every parameter that says
whether a tag for a tool has filled it.  The invariant is what the slots and the parameters with
their marks are, as functions of the tags so far: the mark is set exactly if one of these tags is
for a tool and of the kind.

## Main definitions

* `first?`, `preferred?`, `allOf`: what tags say of a kind, by the rule of the kind.
* `slotFor`: what a slot holds after the given tags, with its mark.
* `Document.ofTags`: the document of the given tags, without paragraphs.
* `Document.Gathers`: what is gathered from tags so far.

## Main statements

* `Document.absorb_eq`: what one tag changes, place by place.
* `Document.Gathers.absorb`: one more tag keeps the invariant.
* `Document.sorted_ofComment`: what a comment says, told from its tags.
-/

namespace PhpHandbook.DocBlock

/-! ### Kinds of tags -/

namespace TagValue

/-- The template that is declared. -/
def template? : TagValue → Option TemplateTag
  | .template t => some t
  | _ => none

/-- The parent with its arguments. -/
def extending? : TagValue → Option TypeTag
  | .extending t => some t
  | _ => none

/-- The interface with its arguments. -/
def implementing? : TagValue → Option TypeTag
  | .implementing t => some t
  | _ => none

/-- The trait with its arguments. -/
def usingTrait? : TagValue → Option TypeTag
  | .usingTrait t => some t
  | _ => none

/-- The parameter. -/
def param? : TagValue → Option ParamTag
  | .param t => some t
  | _ => none

/-- What a parameter holds after the call. -/
def paramOut? : TagValue → Option ParamOutTag
  | .paramOut t => some t
  | _ => none

/-- What is returned. -/
def returning? : TagValue → Option TypeTag
  | .returning t => some t
  | _ => none

/-- The type of a variable. -/
def var? : TagValue → Option VarTag
  | .var t => some t
  | _ => none

/-- The exception. -/
def throwing? : TagValue → Option TypeTag
  | .throwing t => some t
  | _ => none

/-- Why the thing should no longer be used. -/
def deprecated? : TagValue → Option String
  | .deprecated text => some text
  | _ => none

/-- The assertion. -/
def assert? : TagValue → Option AssertTag
  | .assert t => some t
  | _ => none

/-- Whether the tag has a form of its own and could be read. -/
def isRead : TagValue → Bool
  | .plain _ | .invalid .. => false
  | _ => true

end TagValue

/-- The tag that a block is. -/
def Block.tag? : Block → Option Tag
  | .text _ => none
  | .tag name body => some (Tag.ofBody name ("\n".intercalate body))

/-- The paragraph that a block is. -/
def Block.paragraph? : Block → Option String
  | .text lines => some ("\n".intercalate lines)
  | .tag .. => none

/-! ### What tags say -/

section Rules

variable {α : Type} (said? : TagValue → Option α)

/-- The first thing of a kind that is said. -/
def first? (tags : List Tag) : Option α :=
  tags.findSome? (said? ·.value)

/-- **The rule of precedence**: the first thing of a kind that is said for an analysis tool, or else
the first that is said for none. -/
def preferred? (tags : List Tag) : Option α :=
  (first? said? (tags.filter (·.isForTool))).or (first? said? (tags.filter (!·.isForTool)))

/-- All that is said of a kind, in order. -/
def allOf (tags : List Tag) : List α :=
  tags.filterMap (said? ·.value)

/-- What a slot holds after the given tags: what they prefer, and whether it was said for a tool. -/
def slotFor (tags : List Tag) : Slot α :=
  ⟨preferred? said? tags, (first? said? (tags.filter (·.isForTool))).isSome⟩

/-- The names that things of a kind have, in the order in which they come up. -/
def namesOf (name : α → String) (tags : List Tag) : List String :=
  ((allOf said? tags).map name).eraseDups

/-- A thing of a kind if it has the given name. -/
def named? (name : α → String) (n : String) (value : TagValue) : Option α :=
  (said? value).filter (name · == n)

variable {said?}

theorem named?_none {name : α → String} {n : String} {value : TagValue}
    (h : said? value = none) :
    named? said? name n value = none := by
  rw [named?, h, Option.filter_none]

theorem named?_some {name : α → String} {n : String} {value : TagValue} {a : α}
    (h : said? value = some a) :
    named? said? name n value = if name a = n then some a else none := by
  simp [named?, h, Option.filter]

variable (tags : List Tag) (tag : Tag)

theorem first?_append_singleton :
    first? said? (tags ++ [tag]) = (first? said? tags).or (said? tag.value) := by
  rw [first?, List.findSome?_append, List.findSome?_singleton, first?]

theorem allOf_append_singleton :
    allOf said? (tags ++ [tag]) = allOf said? tags ++ (said? tag.value).toList := by
  rw [allOf, List.filterMap_append, ← allOf]
  cases h : said? tag.value <;> simp [h]

theorem first?_filter_append_singleton (marked : Tag → Bool) :
    first? said? ((tags ++ [tag]).filter marked)
      = (first? said? (tags.filter marked)).or (if marked tag then said? tag.value else none) := by
  rw [List.filter_append]
  cases h : marked tag
  · simp [h]
  · simp [h, first?_append_singleton]

/-- **A slot after one more tag**: it is offered what the tag says, if the tag is of its kind. -/
theorem slotFor_append_singleton :
    slotFor said? (tags ++ [tag])
      = (said? tag.value).elim (slotFor said? tags) ((slotFor said? tags).offer tag.isForTool) := by
  rw [slotFor, preferred?, first?_filter_append_singleton, first?_filter_append_singleton]
  cases hsaid : said? tag.value with
  | none => simp [slotFor, preferred?]
  | some a =>
    -- whether a tag for a tool has come before, and one for none, decides who is kept
    cases htool : tag.isForTool <;>
      cases hmarked : first? said? (tags.filter (·.isForTool)) <;>
        cases hplain : first? said? (tags.filter (!·.isForTool)) <;>
          simp [slotFor, preferred?, Slot.offer, hmarked, hplain]

variable (name : α → String)

theorem namesOf_append_singleton :
    namesOf said? name (tags ++ [tag])
      = (said? tag.value).elim (namesOf said? name tags) fun a =>
          if name a ∈ namesOf said? name tags then namesOf said? name tags
          else namesOf said? name tags ++ [name a] := by
  rw [namesOf, allOf_append_singleton, List.map_append, List.eraseDups_append, ← namesOf]
  cases said? tag.value with
  | none => simp
  | some a =>
    have hmem : name a ∈ namesOf said? name tags ↔ name a ∈ (allOf said? tags).map name :=
      List.mem_eraseDups
    by_cases h : name a ∈ (allOf said? tags).map name
    · rw [Option.toList_some, List.map_singleton, List.removeAll,
        List.filter_cons_of_neg (by simpa using h)]
      simp [hmem.2 h]
    · rw [Option.toList_some, List.map_singleton, List.removeAll,
        List.filter_cons_of_pos (by simpa using h)]
      simp [mt hmem.1 h, List.eraseDups_cons]

/-- No name comes twice. -/
theorem nodup_namesOf : (namesOf said? name tags).Nodup := by
  induction tags using List.reverseRecOn with
  | nil => exact List.nodup_nil
  | append_singleton tags tag ih =>
    rw [namesOf_append_singleton]
    cases said? tag.value with
    | none => exact ih
    | some a =>
      rw [Option.elim_some]
      split_ifs with hmem
      · exact ih
      · rw [← List.concat_eq_append]
        exact ih.concat hmem

end Rules

/-! ### Entries by name -/

section Entries

variable {ε : Type} (key : ε → String)

/-- Where no name comes twice, an entry is found by its name. -/
theorem find?_key_of_mem {entries : List ε} (hnodup : (entries.map key).Nodup) {entry : ε}
    (h : entry ∈ entries) : entries.find? (key · == key entry) = some entry := by
  induction entries with
  | nil => cases h
  | cons first entries ih =>
    rw [List.map_cons, List.nodup_cons] at hnodup
    rcases List.mem_cons.1 h with rfl | hmem
    · simp
    · have hne : key first ≠ key entry := by
        intro heq
        exact hnodup.1 (heq ▸ List.mem_map_of_mem hmem)
      rw [List.find?_cons_of_neg (by simpa using hne), ih hnodup.2 hmem]

/-- Entries that are what a rule gives for their names are told by their names. -/
theorem map_some_eq_of_find? {α : Type} {entries : List ε} (value : ε → α)
    {rule : String → Option α} (hnodup : (entries.map key).Nodup)
    (hrule : ∀ n, (entries.find? (key · == n)).map value = rule n) :
    (entries.map value).map some = (entries.map key).map rule := by
  rw [List.map_map, List.map_map]
  refine List.map_congr_left fun entry hentry => ?_
  rw [Function.comp_apply, Function.comp_apply, ← hrule, find?_key_of_mem key hnodup hentry]
  rfl

end Entries

namespace Document

/-- What is held for a parameter, with its mark. -/
def paramSlot (slots : List (ParamTag × Bool)) (n : String) : Slot ParamTag :=
  ((slots.find? (·.1.name == n)).map fun slot => ⟨some slot.1, slot.2⟩).getD {}

/-- **A parameter that is offered** is taken by the slot of its name, and by no other. -/
theorem paramSlot_offerParam (forTool : Bool) (t : ParamTag) (slots : List (ParamTag × Bool))
    (n : String) :
    paramSlot (offerParam forTool t slots) n
      = if t.name = n then (paramSlot slots n).offer forTool t else paramSlot slots n := by
  induction slots with
  | nil => by_cases h : t.name = n <;> simp [offerParam, paramSlot, Slot.offer, h]
  | cons slot slots ih =>
    obtain ⟨old, oldTool⟩ := slot
    by_cases hsame : old.name = t.name
    · rw [offerParam, if_pos hsame]
      by_cases hn : t.name = n
      · cases htaken : forTool && !oldTool <;> simp [paramSlot, Slot.offer, hsame, hn, htaken]
      · cases forTool && !oldTool <;> simp [paramSlot, hsame, hn]
    · rw [offerParam, if_neg hsame]
      by_cases hold : old.name = n
      · have hn : t.name ≠ n := fun hn => hsame (hold.trans hn.symm)
        simp [paramSlot, hold, hn]
      · have hskip (more : List (ParamTag × Bool)) :
            paramSlot ((old, oldTool) :: more) n = paramSlot more n := by
          simp [paramSlot, hold]
        rw [hskip, hskip, ih]

theorem map_name_offerParam (forTool : Bool) (t : ParamTag) (slots : List (ParamTag × Bool)) :
    (offerParam forTool t slots).map (·.1.name)
      = if t.name ∈ slots.map (·.1.name) then slots.map (·.1.name)
        else slots.map (·.1.name) ++ [t.name] := by
  induction slots with
  | nil => rfl
  | cons slot slots ih =>
    obtain ⟨old, oldTool⟩ := slot
    by_cases hsame : old.name = t.name
    · rw [offerParam, if_pos hsame, List.map_cons, List.map_cons]
      cases forTool && !oldTool <;> simp [hsame]
    · rw [offerParam, if_neg hsame, List.map_cons, ih, List.map_cons]
      by_cases hmem : t.name ∈ slots.map (·.1.name)
      · rw [if_pos hmem, if_pos (List.mem_cons_of_mem _ hmem)]
      · rw [if_neg hmem, if_neg (by simpa [Ne.symm hsame] using hmem), List.cons_append]

/-- What parameters hold after the call, with one more. -/
def offerParamOut (outs : List ParamOutTag) (t : ParamOutTag) : List ParamOutTag :=
  if outs.any (·.name == t.name) then outs else outs ++ [t]

theorem find?_offerParamOut (outs : List ParamOutTag) (t : ParamOutTag) (n : String) :
    (offerParamOut outs t).find? (·.name == n)
      = (outs.find? (·.name == n)).or (if t.name = n then some t else none) := by
  unfold offerParamOut
  split_ifs with hany hn hn
  · subst hn
    obtain ⟨out, hout⟩ :=
      Option.isSome_iff_exists.1 (List.find?_isSome.2 (List.any_eq_true.1 hany))
    rw [hout, Option.some_or]
  · rw [Option.or_none]
  · simp [hn]
  · simp [hn]

theorem map_name_offerParamOut (outs : List ParamOutTag) (t : ParamOutTag) :
    (offerParamOut outs t).map (·.name)
      = if t.name ∈ outs.map (·.name) then outs.map (·.name)
        else outs.map (·.name) ++ [t.name] := by
  have hmem : outs.any (·.name == t.name) = true ↔ t.name ∈ outs.map (·.name) := by
    simp
  simp only [offerParamOut, hmem]
  split_ifs
  · rfl
  · rw [List.map_append, List.map_singleton]

/-! ### One tag -/

/-- **What one tag changes**, place by place: each place looks only for the tags of its kind. -/
theorem absorb_eq (doc : Document) (tag : Tag) :
    doc.absorb tag =
      { doc with
        templates := doc.templates ++ tag.value.template?.toList
        extending := tag.value.extending?.elim doc.extending (doc.extending.offer tag.isForTool)
        implementing := doc.implementing ++ tag.value.implementing?.toList
        var := tag.value.var?.elim doc.var (doc.var.offer tag.isForTool)
        returning := tag.value.returning?.elim doc.returning (doc.returning.offer tag.isForTool)
        paramSlots :=
          tag.value.param?.elim doc.paramSlots (offerParam tag.isForTool · doc.paramSlots)
        paramOuts := tag.value.paramOut?.elim doc.paramOuts (offerParamOut doc.paramOuts)
        throwing := doc.throwing ++ tag.value.throwing?.toList
        usedTrait := tag.value.usingTrait?.elim doc.usedTrait (doc.usedTrait.offer tag.isForTool)
        deprecated := doc.deprecated.or tag.value.deprecated?
        asserts := doc.asserts ++ tag.value.assert?.toList } := by
  obtain ⟨name, value⟩ := tag
  cases value with
  | paramOut t =>
    cases htaken : doc.paramOuts.any (·.name == t.name) <;>
      simp only [absorb, htaken] <;>
        simp [TagValue.template?, TagValue.extending?, TagValue.implementing?, TagValue.var?,
          TagValue.returning?, TagValue.param?, TagValue.paramOut?, TagValue.throwing?,
          TagValue.usingTrait?, TagValue.deprecated?, TagValue.assert?, offerParamOut, htaken]
  | _ =>
    simp [absorb, TagValue.template?, TagValue.extending?, TagValue.implementing?, TagValue.var?,
      TagValue.returning?, TagValue.param?, TagValue.paramOut?, TagValue.throwing?,
      TagValue.usingTrait?, TagValue.deprecated?, TagValue.assert?]

/-- A tag without a form of its own, and one that could not be read, change nothing. -/
theorem absorb_of_not_isRead (doc : Document) {tag : Tag} (h : tag.value.isRead = false) :
    doc.absorb tag = doc := by
  obtain ⟨name, value⟩ := tag
  cases value <;> first | rfl | cases h

/-! ### All tags -/

/-- The document of the given tags, without paragraphs. -/
def ofTags (tags : List Tag) : Document :=
  tags.foldl absorb {}

theorem ofTags_append_singleton (tags : List Tag) (tag : Tag) :
    ofTags (tags ++ [tag]) = (ofTags tags).absorb tag := by
  rw [ofTags, List.foldl_append, List.foldl_cons, List.foldl_nil, ofTags]

/-- **What is gathered from tags so far.** -/
structure Gathers (doc : Document) (tags : List Tag) : Prop where
  templates : doc.templates = allOf TagValue.template? tags
  extending : doc.extending = slotFor TagValue.extending? tags
  implementing : doc.implementing = allOf TagValue.implementing? tags
  var : doc.var = slotFor TagValue.var? tags
  returning : doc.returning = slotFor TagValue.returning? tags
  paramNames : doc.paramSlots.map (·.1.name) = namesOf TagValue.param? ParamTag.name tags
  paramSlots :
    ∀ n, paramSlot doc.paramSlots n = slotFor (named? TagValue.param? ParamTag.name n) tags
  paramOutNames : doc.paramOuts.map (·.name) = namesOf TagValue.paramOut? ParamOutTag.name tags
  paramOuts : ∀ n, doc.paramOuts.find? (·.name == n)
    = first? (named? TagValue.paramOut? ParamOutTag.name n) tags
  throwing : doc.throwing = allOf TagValue.throwing? tags
  usedTrait : doc.usedTrait = slotFor TagValue.usingTrait? tags
  deprecated : doc.deprecated = first? TagValue.deprecated? tags
  asserts : doc.asserts = allOf TagValue.assert? tags

/-- **One more tag** is gathered with those before it. -/
theorem Gathers.absorb {doc : Document} {tags : List Tag} (h : doc.Gathers tags) (tag : Tag) :
    (doc.absorb tag).Gathers (tags ++ [tag]) := by
  rw [absorb_eq]
  constructor
  case templates => simp only [h.templates, allOf_append_singleton]
  case extending => simp only [h.extending, slotFor_append_singleton]
  case implementing => simp only [h.implementing, allOf_append_singleton]
  case var => simp only [h.var, slotFor_append_singleton]
  case returning => simp only [h.returning, slotFor_append_singleton]
  case paramNames =>
    rw [namesOf_append_singleton, ← h.paramNames]
    cases tag.value.param? with
    | none => rfl
    | some t => exact map_name_offerParam _ _ _
  case paramSlots =>
    intro n
    rw [slotFor_append_singleton, ← h.paramSlots]
    cases hsaid : tag.value.param? with
    | none => rw [named?_none hsaid, Option.elim_none, Option.elim_none]
    | some t =>
      rw [named?_some hsaid, Option.elim_some, paramSlot_offerParam]
      split_ifs <;> rfl
  case paramOutNames =>
    rw [namesOf_append_singleton, ← h.paramOutNames]
    cases tag.value.paramOut? with
    | none => rfl
    | some t => exact map_name_offerParamOut _ _
  case paramOuts =>
    intro n
    rw [first?_append_singleton, ← h.paramOuts]
    cases hsaid : tag.value.paramOut? with
    | none => rw [named?_none hsaid, Option.elim_none, Option.or_none]
    | some t => rw [named?_some hsaid, Option.elim_some, find?_offerParamOut]
  case throwing => simp only [h.throwing, allOf_append_singleton]
  case usedTrait => simp only [h.usedTrait, slotFor_append_singleton]
  case deprecated => simp only [h.deprecated, first?_append_singleton]
  case asserts => simp only [h.asserts, allOf_append_singleton]

/-- **A run over tags** gathers all of them. -/
theorem gathers_ofTags (tags : List Tag) : (ofTags tags).Gathers tags := by
  induction tags using List.reverseRecOn with
  | nil => constructor <;> first | rfl | exact fun _ => rfl
  | append_singleton tags tag ih =>
    rw [ofTags_append_singleton]
    exact ih.absorb tag

/-- Tags that change nothing may be left out. -/
theorem ofTags_filter_isRead (tags : List Tag) :
    ofTags (tags.filter (·.value.isRead)) = ofTags tags := by
  induction tags using List.reverseRecOn with
  | nil => rfl
  | append_singleton tags tag ih =>
    rw [List.filter_append, ofTags_append_singleton]
    cases hread : tag.value.isRead with
    | true => simp [hread, ofTags_append_singleton, ih]
    | false => simp [hread, absorb_of_not_isRead _ hread, ih]

/-! ### The comment as a whole -/

/-- The document with the given paragraphs and the given list of tags. -/
def listing (doc : Document) (texts : List String) (tags : List Tag) : Document :=
  { doc with texts, tags }

/-- Sorting a tag in does not look at the paragraphs and at the list of tags. -/
theorem absorb_listing (doc : Document) (texts : List String) (tags : List Tag) (tag : Tag) :
    (doc.listing texts tags).absorb tag = (doc.absorb tag).listing texts tags := by
  rw [absorb_eq, absorb_eq]
  rfl

/-- **One more block** is a tag that is sorted in, or a paragraph. -/
theorem add_listing (texts : List String) (tags : List Tag) (block : Block) :
    ((ofTags tags).listing texts tags).add block
      = (ofTags (tags ++ block.tag?.toList)).listing (texts ++ block.paragraph?.toList)
          (tags ++ block.tag?.toList) := by
  cases block with
  | text lines => simp [add, Block.tag?, Block.paragraph?, listing]
  | tag name body =>
    simp only [add, Block.tag?, Block.paragraph?, Option.toList_some, Option.toList_none,
      List.append_nil, absorb_listing, ofTags_append_singleton]
    rfl

/-- **A comment is read** as its paragraphs and its tags. -/
theorem ofComment_eq (comment : String) :
    ofComment comment = (ofTags ((blocks comment).filterMap Block.tag?)).listing
      ((blocks comment).filterMap Block.paragraph?) ((blocks comment).filterMap Block.tag?) := by
  rw [ofComment]
  induction blocks comment using List.reverseRecOn with
  | nil => rfl
  | append_singleton before block ih =>
    rw [List.foldl_append, List.foldl_cons, List.foldl_nil, ih, add_listing, List.filterMap_append,
      List.filterMap_append]
    cases block <;> rfl

/-- **What a document says**, told from tags.

* The parent, what is returned, the type of a variable and the used trait are what the tags prefer.
* Every name of a parameter has one entry, in the order of the first tags of the names, and the
  entry is what the tags of this name prefer.
* What parameters hold after the call is the first tag of each name; why the thing should no longer
  be used is the first tag that says so.
* The templates, the interfaces, the exceptions and the assertions are all tags of their kind, in
  order. -/
structure Sorted (doc : Document) (tags : List Tag) : Prop where
  extending : doc.extending.value = preferred? TagValue.extending? tags
  returning : doc.returning.value = preferred? TagValue.returning? tags
  var : doc.var.value = preferred? TagValue.var? tags
  usedTrait : doc.usedTrait.value = preferred? TagValue.usingTrait? tags
  params : doc.params.map some
    = (namesOf TagValue.param? ParamTag.name tags).map fun n =>
        preferred? (named? TagValue.param? ParamTag.name n) tags
  paramOuts : doc.paramOuts.map some
    = (namesOf TagValue.paramOut? ParamOutTag.name tags).map fun n =>
        first? (named? TagValue.paramOut? ParamOutTag.name n) tags
  deprecated : doc.deprecated = first? TagValue.deprecated? tags
  templates : doc.templates = allOf TagValue.template? tags
  implementing : doc.implementing = allOf TagValue.implementing? tags
  throwing : doc.throwing = allOf TagValue.throwing? tags
  asserts : doc.asserts = allOf TagValue.assert? tags

theorem paramSlot_value (slots : List (ParamTag × Bool)) (n : String) :
    (paramSlot slots n).value = (slots.find? (·.1.name == n)).map (·.1) := by
  unfold paramSlot
  cases slots.find? (·.1.name == n) <;> rfl

theorem Gathers.sorted {doc : Document} {tags : List Tag} (h : doc.Gathers tags) :
    doc.Sorted tags where
  extending := by rw [h.extending, slotFor]
  returning := by rw [h.returning, slotFor]
  var := by rw [h.var, slotFor]
  usedTrait := by rw [h.usedTrait, slotFor]
  params := by
    rw [← h.paramNames]
    refine map_some_eq_of_find? _ _ (h.paramNames ▸ nodup_namesOf tags _) fun n => ?_
    rw [← paramSlot_value, h.paramSlots, slotFor]
  paramOuts := by
    rw [← h.paramOutNames]
    have hrule (n : String) : (doc.paramOuts.find? (·.name == n)).map id
        = first? (named? TagValue.paramOut? ParamOutTag.name n) tags := by
      rw [Option.map_id, id, h.paramOuts]
    have hentries :=
      map_some_eq_of_find? ParamOutTag.name id (h.paramOutNames ▸ nodup_namesOf tags _) hrule
    rwa [List.map_id] at hentries
  deprecated := h.deprecated
  templates := h.templates
  implementing := h.implementing
  throwing := h.throwing
  asserts := h.asserts

/-- What a parameter of a name is, told from tags. -/
theorem Gathers.find?_params {doc : Document} {tags : List Tag} (h : doc.Gathers tags)
    (n : String) :
    doc.params.find? (·.name == n) = preferred? (named? TagValue.param? ParamTag.name n) tags := by
  have hslot := congrArg Slot.value (h.paramSlots n)
  rw [paramSlot_value] at hslot
  rw [params, List.find?_map]
  exact hslot

theorem gathers_ofComment (comment : String) :
    (ofComment comment).Gathers (ofComment comment).tags := by
  rw [ofComment_eq]
  generalize (blocks comment).filterMap Block.tag? = tags
  exact { gathers_ofTags tags with }

/-- **What a comment says, told from its tags**, and from those of them alone that have a form of
their own and could be read. -/
theorem sorted_ofComment (comment : String) :
    (ofComment comment).Sorted (ofComment comment).tags ∧
    (ofComment comment).Sorted ((ofComment comment).tags.filter (·.value.isRead)) := by
  refine ⟨(gathers_ofComment comment).sorted, ?_⟩
  rw [ofComment_eq]
  generalize (blocks comment).filterMap Block.tag? = tags
  have hread := (gathers_ofTags (tags.filter (·.value.isRead))).sorted
  rw [ofTags_filter_isRead] at hread
  exact { hread with }

/-- What is said for a tool takes the place of the first tag of its name. -/
example :
    ((ofComment
      "/**\n * @param array $a\n * @param int $b\n * @psalm-param list<int> $a\n */").params.map
        fun tag => (tag.name, tag.type.map (·.text)))
      = [("$a", some "list<int>"), ("$b", some "int")] := by
  decide +kernel

end Document

end PhpHandbook.DocBlock
