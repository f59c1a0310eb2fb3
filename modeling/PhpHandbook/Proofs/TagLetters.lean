import PhpHandbook.Proofs.RecasedComments
import PhpHandbook.Proofs.SortedTags

/-!
# Letters of tag names

What a tag says does not depend on the letters of its name, but whether it is for an analysis tool
does: a name is recognised in capital and small letters, and the mark of a tool in small letters
alone.  So in other letters a comment says the same wherever all tags of a kind are kept or the
first one counts, and where the rule of precedence is used, it may say something else.

Exactly when it may is told from the tags as they stand.  A tag that has the mark of a tool in some
letters can be made to count before all others, by writing it in small letters and the others in
capitals, and with all names in capitals the first tag of each kind counts.  The comment says the
same in all letters if these two never differ.

## Main definitions

* `Tag.Recased`: a tag under a name in other letters.
* `Unanimous`: the tags of a kind that may be for a tool say what the first tag of the kind says.
* `SaysTheSame`: documents that are the same but for the names in their lists of tags.

## Main statements

* `Recased.sameLists`: what does not hang on the letters.
* `exists_recased_preferring`: a tag that may be for a tool counts before all others in some
  letters.
* `recased_says_the_same_iff`: what the letters of tag names decide.
-/

namespace PhpHandbook

namespace DocBlock

/-! ### Tags in other letters -/

/-- A tag that says the same under a name in other letters. -/
structure Tag.Recased (tag tag' : Tag) : Prop where
  letters : SameLetters tag.name.toList tag'.name.toList
  value : tag'.value = tag.value

theorem SameLetters.map_toLower {name name' : String} (h : SameLetters name.toList name'.toList) :
    name'.map Char.toLower = name.map Char.toLower := by
  rw [← String.toList_inj, String.toList_map, String.toList_map]
  exact h

theorem Tag.ofBody_eq (name body : String) :
    Tag.ofBody name body = ⟨name, (Tag.ofBody name body).value⟩ := by
  rw [Tag.ofBody]
  split <;> rfl

/-- **What a tag says** does not depend on the letters of its name. -/
theorem Tag.recased_ofBody {name name' : String} (h : SameLetters name.toList name'.toList)
    (body : String) :
    (Tag.ofBody name body).Recased (Tag.ofBody name' body) := by
  have hvalue : readValue name' body = readValue name body := by
    rw [readValue, readValue, h.map_toLower]
  rw [Tag.ofBody, Tag.ofBody, hvalue]
  cases readValue name body with
  | ok value => exact ⟨h, rfl⟩
  | error e => exact ⟨h, rfl⟩

theorem recased_tags {bs bs' : List Block} (h : List.Forall₂ Block.Recased bs bs') :
    List.Forall₂ Tag.Recased (bs.filterMap Block.tag?) (bs'.filterMap Block.tag?) := by
  refine List.rel_filterMap (fun block block' hblock => ?_) h
  cases hblock with
  | text lines => exact .none
  | tag body hletters => exact .some (Tag.recased_ofBody hletters _)

theorem paragraphs_of_recased {bs bs' : List Block} (h : List.Forall₂ Block.Recased bs bs') :
    bs'.filterMap Block.paragraph? = bs.filterMap Block.paragraph? := by
  induction h with
  | nil => rfl
  | cons hblock _ ih =>
    cases hblock with
    | text lines => exact congrArg (_ :: ·) ih
    | tag body hletters => exact ih

theorem tags_ofComment (comment : String) :
    (Document.ofComment comment).tags = (blocks comment).filterMap Block.tag? := by
  rw [Document.ofComment_eq]
  rfl

theorem texts_ofComment (comment : String) :
    (Document.ofComment comment).texts = (blocks comment).filterMap Block.paragraph? := by
  rw [Document.ofComment_eq]
  rfl

section Rules

variable {α : Type} {said? : TagValue → Option α} {tags tags' : List Tag}

theorem values_of_recased (h : List.Forall₂ Tag.Recased tags tags') :
    tags'.map (·.value) = tags.map (·.value) := by
  induction h with
  | nil => rfl
  | cons htag _ ih => rw [List.map_cons, List.map_cons, htag.value, ih]

/-- The first thing of a kind that is said does not depend on the letters. -/
theorem first?_of_recased (h : List.Forall₂ Tag.Recased tags tags') :
    first? said? tags' = first? said? tags := by
  have hvalues (ts : List Tag) : first? said? ts = (ts.map (·.value)).findSome? said? := by
    rw [List.findSome?_map]
    rfl
  rw [hvalues, hvalues, values_of_recased h]

theorem allOf_of_recased (h : List.Forall₂ Tag.Recased tags tags') :
    allOf said? tags' = allOf said? tags := by
  have hvalues (ts : List Tag) : allOf said? ts = (ts.map (·.value)).filterMap said? := by
    rw [List.filterMap_map]
    rfl
  rw [hvalues, hvalues, values_of_recased h]

/-- Whether some way to write the name of a tag is that of a tag for an analysis tool. -/
def Tag.mayBeForTool (tag : Tag) : Bool :=
  (stripTool? (tag.name.map Char.toLower)).isSome

theorem stripTool?_isSome_iff {name : String} :
    (stripTool? name).isSome = true ↔ ∃ mark ∈ toolMarks, mark.toList <+: name.toList := by
  rw [stripTool?, List.findSome?_isSome_iff]
  refine exists_congr fun mark => and_congr_right fun _ => ?_
  rw [strip?, ← List.isPrefixOf_iff_prefix]
  split_ifs with hfront <;> simp [hfront]

theorem Tag.mayBeForTool_of_isForTool {tag : Tag} (h : tag.isForTool = true) :
    tag.mayBeForTool = true := by
  obtain ⟨mark, hmark, hfront⟩ := stripTool?_isSome_iff.1 h
  refine stripTool?_isSome_iff.2 ⟨mark, hmark, ?_⟩
  have hsmall : ∀ mark ∈ toolMarks, mark.toList.map Char.toLower = mark.toList := by decide
  rw [String.toList_map, ← hsmall mark hmark]
  exact hfront.map _

theorem Tag.Recased.mayBeForTool {tag tag' : Tag} (h : tag.Recased tag') :
    tag'.mayBeForTool = tag.mayBeForTool := by
  rw [Tag.mayBeForTool, Tag.mayBeForTool, h.letters.map_toLower]

/-- **The tags for tools agree with the first tag**: a tag of the kind that may be for a tool says
the same as the first tag of the kind. -/
def Unanimous (said? : TagValue → Option α) (tags : List Tag) : Prop :=
  ∀ tag ∈ tags, tag.mayBeForTool = true → ∀ a, said? tag.value = some a →
    first? said? tags = some a

theorem Unanimous.of_recased (h : List.Forall₂ Tag.Recased tags tags')
    (hsame : Unanimous said? tags) :
    Unanimous said? tags' := by
  intro tag' htag' htool a hsaid
  obtain ⟨tag, htag, hrecased : tag.Recased tag'⟩ := exists_of_mem_forall₂ h.flip htag'
  rw [hrecased.mayBeForTool] at htool
  rw [hrecased.value] at hsaid
  rw [first?_of_recased h]
  exact hsame tag htag htool a hsaid

/-- Tags that say nothing of a kind may be left out. -/
theorem first?_filter_of_none {marked : Tag → Bool}
    (h : ∀ tag ∈ tags, marked tag = false → said? tag.value = none) :
    first? said? (tags.filter marked) = first? said? tags := by
  induction tags with
  | nil => rfl
  | cons tag tags ih =>
    rw [List.forall_mem_cons] at h
    have hmore := ih h.2
    unfold first? at hmore ⊢
    cases hmarked : marked tag with
    | true => rw [List.filter_cons_of_pos hmarked, List.findSome?_cons, List.findSome?_cons, hmore]
    | false =>
      rw [List.filter_cons_of_neg (by simp [hmarked]), hmore, List.findSome?_cons, h.1 hmarked]

/-- Where the tags for tools agree with the first one, the rule of precedence gives the first
one. -/
theorem Unanimous.preferred?_eq (h : Unanimous said? tags) :
    preferred? said? tags = first? said? tags := by
  rw [preferred?]
  cases htools : first? said? (tags.filter (·.isForTool)) with
  | some a =>
    obtain ⟨tag, hmem, hsaid⟩ := List.exists_of_findSome?_eq_some htools
    obtain ⟨htag, htool⟩ := List.mem_filter.1 hmem
    rw [h tag htag (Tag.mayBeForTool_of_isForTool htool) a hsaid, Option.some_or]
  | none =>
    rw [Option.none_or]
    refine first?_filter_of_none fun tag htag htool => ?_
    exact List.findSome?_eq_none_iff.1 htools tag
      (List.mem_filter.2 ⟨htag, by simpa using htool⟩)

end Rules

/-! ### Choosing the letters -/

/-- A tag with the letters of its name changed. -/
def Tag.relettered (f : Char → Char) (tag : Tag) : Tag :=
  { tag with name := tag.name.map f }

/-- A block with the letters of its name changed. -/
def Block.relettered (f : Char → Char) : Block → Block
  | .text lines => .text lines
  | .tag name body => .tag (name.map f) body

section Relettered

variable {f : Char → Char} (hf : ∀ c, (f c).toLower = c.toLower)
include hf

theorem sameLetters_map (name : String) : SameLetters name.toList (name.map f).toList := by
  rw [SameLetters, String.toList_map, List.map_map]
  exact List.map_congr_left fun c _ => hf c

theorem Block.recased_relettered (block : Block) : block.Recased (block.relettered f) := by
  cases block with
  | text lines => exact .text lines
  | tag name body => exact .tag body (sameLetters_map hf name)

theorem Block.tag?_relettered (block : Block) :
    (block.relettered f).tag? = block.tag?.map (Tag.relettered f) := by
  cases block with
  | text lines => rfl
  | tag name body =>
    have hvalue := (Tag.recased_ofBody (sameLetters_map hf name) ("\n".intercalate body)).value
    rw [Block.relettered, Block.tag?, Block.tag?, Tag.ofBody_eq, hvalue, Tag.ofBody_eq name]
    rfl

theorem filterMap_tag?_relettered (bs : List Block) :
    (bs.map (Block.relettered f)).filterMap Block.tag?
      = (bs.filterMap Block.tag?).map (Tag.relettered f) := by
  rw [List.filterMap_map, List.map_filterMap]
  exact List.filterMap_congr fun block _ => Block.tag?_relettered hf block

theorem recased_map_relettered (bs : List Block) :
    List.Forall₂ Block.Recased bs (bs.map (Block.relettered f)) :=
  List.forall₂_map_right_iff.2
    (List.forall₂_same.2 fun block _ => Block.recased_relettered hf block)

end Relettered

/-- No tag for a tool has its name in capital letters. -/
theorem Tag.isForTool_capital (tag : Tag) : (tag.relettered Char.toUpper).isForTool = false := by
  rw [Bool.eq_false_iff]
  intro htool
  obtain ⟨mark, hmark, hfront⟩ := stripTool?_isSome_iff.1 htool
  have hsmall : ∀ mark ∈ toolMarks, mark.toList.any Char.isLower = true := by decide
  obtain ⟨c, hc, hlower⟩ := List.any_eq_true.1 (hsmall mark hmark)
  have hmem : c ∈ (tag.name.map Char.toUpper).toList := hfront.subset hc
  rw [String.toList_map] at hmem
  obtain ⟨d, -, rfl⟩ := List.mem_map.1 hmem
  rw [Char.isLower_toUpper_eq_false] at hlower
  cases hlower

theorem filter_capital (tags : List Tag) :
    (tags.map (Tag.relettered Char.toUpper)).filter (·.isForTool) = [] := by
  rw [List.filter_eq_nil_iff]
  intro tag htag
  obtain ⟨tag, -, rfl⟩ := List.mem_map.1 htag
  simp [Tag.isForTool_capital]

/-- **No tag for a tool**: in some letters, the first tag of every kind counts. -/
theorem exists_recased_first (comment : String) :
    ∃ comment', Recased comment comment' ∧ ∀ {α : Type} (said? : TagValue → Option α),
      preferred? said? (Document.ofComment comment').tags
        = first? said? (Document.ofComment comment).tags := by
  have hblocks := recased_map_relettered Char.toLower_toUpper_eq_toLower (blocks comment)
  obtain ⟨comment', hcomment, hsame⟩ := exists_recased_comment hblocks
  refine ⟨comment', hcomment, fun {α} said? => ?_⟩
  have htags := recased_tags (hcomment.blocks)
  rw [tags_ofComment, tags_ofComment, ← first?_of_recased htags, hsame,
    filterMap_tag?_relettered Char.toLower_toUpper_eq_toLower, preferred?, filter_capital]
  refine first?_filter_of_none fun tag htag htool => ?_
  obtain ⟨tag, -, rfl⟩ := List.mem_map.1 htag
  simp [Tag.isForTool_capital] at htool

/-- **One tag for a tool**: in some letters, a tag that may be for a tool counts before all
others. -/
theorem exists_recased_preferring {comment : String} {tag : Tag}
    (htag : tag ∈ (Document.ofComment comment).tags) (htool : tag.mayBeForTool = true) :
    ∃ comment', Recased comment comment' ∧
      ∀ {α : Type} (said? : TagValue → Option α) (a : α),
      said? tag.value = some a →
      preferred? said? (Document.ofComment comment').tags = some a := by
  rw [tags_ofComment] at htag
  obtain ⟨block, hblock, hread⟩ := List.mem_filterMap.1 htag
  obtain ⟨before, after, hsplit⟩ := List.append_of_mem hblock
  have hsmall := Char.toLower_toLower_eq_toLower
  have hcapital := Char.toLower_toUpper_eq_toLower
  have hblocks :
      List.Forall₂ Block.Recased (blocks comment) (before.map (Block.relettered Char.toUpper)
      ++ block.relettered Char.toLower :: after.map (Block.relettered Char.toUpper)) := by
    rw [hsplit]
    exact List.rel_append (recased_map_relettered hcapital before)
      (.cons (Block.recased_relettered hsmall block) (recased_map_relettered hcapital after))
  obtain ⟨comment', hcomment, hsame⟩ := exists_recased_comment hblocks
  refine ⟨comment', hcomment, fun {α} said? a hsaid => ?_⟩
  have hchosen : (tag.relettered Char.toLower).isForTool = true := htool
  rw [tags_ofComment, hsame, List.filterMap_append, List.filterMap_cons,
    Block.tag?_relettered hsmall, hread, Option.map_some, filterMap_tag?_relettered hcapital,
    filterMap_tag?_relettered hcapital, preferred?, List.filter_append, filter_capital,
    List.filter_cons_of_pos hchosen, filter_capital]
  simp [first?, Tag.relettered, hsaid]

/-! ### What the letters decide -/

open Document

/-- The places of a document that keep everything, or the first, are the same. -/
structure SameLists (doc doc' : Document) : Prop where
  templates : doc'.templates = doc.templates
  implementing : doc'.implementing = doc.implementing
  paramOuts : doc'.paramOuts = doc.paramOuts
  throwing : doc'.throwing = doc.throwing
  deprecated : doc'.deprecated = doc.deprecated
  asserts : doc'.asserts = doc.asserts
  texts : doc'.texts = doc.texts

/-- All places of a document are the same, its list of tags with their names aside. -/
structure SaysTheSame (doc doc' : Document) : Prop extends SameLists doc doc' where
  extending : doc'.extending.value = doc.extending.value
  var : doc'.var.value = doc.var.value
  returning : doc'.returning.value = doc.returning.value
  params : doc'.params = doc.params
  usedTrait : doc'.usedTrait.value = doc.usedTrait.value

/-- **The tags for tools agree with the first tags**, kind by kind and for each name of a
parameter. -/
structure ToolsAgree (tags : List Tag) : Prop where
  extending : Unanimous TagValue.extending? tags
  var : Unanimous TagValue.var? tags
  returning : Unanimous TagValue.returning? tags
  params : ∀ n, Unanimous (named? TagValue.param? ParamTag.name n) tags
  usedTrait : Unanimous TagValue.usingTrait? tags

section Comment

variable {comment comment' : String}

theorem Recased.tags (h : Recased comment comment') :
    List.Forall₂ Tag.Recased (ofComment comment).tags (ofComment comment').tags := by
  rw [tags_ofComment, tags_ofComment]
  exact recased_tags h.blocks

theorem namesOf_of_recased {α : Type} {said? : TagValue → Option α} {name : α → String}
    {tags tags' : List Tag} (h : List.Forall₂ Tag.Recased tags tags') :
    namesOf said? name tags' = namesOf said? name tags := by
  rw [namesOf, namesOf, allOf_of_recased h]

/-- **What does not hang on the letters**: everything that is kept in order, and what the first tag
says. -/
theorem Recased.sameLists (h : Recased comment comment') :
    SameLists (ofComment comment) (ofComment comment') := by
  have hsorted := (sorted_ofComment comment).1
  have hsorted' := (sorted_ofComment comment').1
  constructor
  case templates => rw [hsorted.templates, hsorted'.templates, allOf_of_recased h.tags]
  case implementing => rw [hsorted.implementing, hsorted'.implementing, allOf_of_recased h.tags]
  case paramOuts =>
    refine List.map_injective_iff.2 (Option.some_injective _) ?_
    rw [hsorted.paramOuts, hsorted'.paramOuts, namesOf_of_recased h.tags]
    exact List.map_congr_left fun n _ => first?_of_recased h.tags
  case throwing => rw [hsorted.throwing, hsorted'.throwing, allOf_of_recased h.tags]
  case deprecated => rw [hsorted.deprecated, hsorted'.deprecated, first?_of_recased h.tags]
  case asserts => rw [hsorted.asserts, hsorted'.asserts, allOf_of_recased h.tags]
  case texts => rw [texts_ofComment, texts_ofComment, paragraphs_of_recased h.blocks]

/-- The rule of precedence gives the same in other letters where the tags for tools agree with the
first. -/
theorem Recased.preferred?_eq {α : Type} {said? : TagValue → Option α}
    (h : Recased comment comment') (hagree : Unanimous said? (ofComment comment).tags) :
    preferred? said? (ofComment comment').tags = preferred? said? (ofComment comment).tags := by
  rw [hagree.preferred?_eq, (hagree.of_recased h.tags).preferred?_eq, first?_of_recased h.tags]

theorem Recased.saysTheSame (h : Recased comment comment')
    (hagree : ToolsAgree (ofComment comment).tags) :
    SaysTheSame (ofComment comment) (ofComment comment') := by
  have hsorted := (sorted_ofComment comment).1
  have hsorted' := (sorted_ofComment comment').1
  exact {
    toSameLists := h.sameLists
    extending := by rw [hsorted.extending, hsorted'.extending, h.preferred?_eq hagree.extending]
    var := by rw [hsorted.var, hsorted'.var, h.preferred?_eq hagree.var]
    returning := by rw [hsorted.returning, hsorted'.returning, h.preferred?_eq hagree.returning]
    params := by
      refine List.map_injective_iff.2 (Option.some_injective _) ?_
      rw [hsorted.params, hsorted'.params, namesOf_of_recased h.tags]
      exact List.map_congr_left fun n _ => h.preferred?_eq (hagree.params n)
    usedTrait := by rw [hsorted.usedTrait, hsorted'.usedTrait, h.preferred?_eq hagree.usedTrait] }

/-- A place that the rule of precedence fills, and that is the same in all letters, is one where the
tags for tools agree with the first: one of them alone may be made to count, and none of them. -/
theorem unanimous_of_same {α : Type} {said? : TagValue → Option α}
    (place : Document → Option α)
    (hplace : ∀ c, place (ofComment c) = preferred? said? (ofComment c).tags)
    (hsame : ∀ comment', Recased comment comment' →
      place (ofComment comment') = place (ofComment comment)) :
    Unanimous said? (ofComment comment).tags := by
  intro tag htag htool a hsaid
  obtain ⟨plain, hplain, hfirst⟩ := exists_recased_first comment
  obtain ⟨one, hone, hpreferred⟩ := exists_recased_preferring htag htool
  calc first? said? (ofComment comment).tags
      = preferred? said? (ofComment plain).tags := (hfirst said?).symm
    _ = place (ofComment plain) := (hplace plain).symm
    _ = place (ofComment one) := (hsame plain hplain).trans (hsame one hone).symm
    _ = preferred? said? (ofComment one).tags := hplace one
    _ = some a := hpreferred said? a hsaid

/-- **What the letters of tag names decide.**  In other letters a comment says the same in every
place that keeps all tags of a kind or the first one.  It says the same in all places, in whatever
letters, exactly if every tag that may be for an analysis tool says what the first tag of its kind
says, and for a parameter, what the first tag for this parameter says: whether a tag is for a tool
is read off its name as written. -/
theorem recased_says_the_same_iff (comment : String) :
    (∀ comment', Recased comment comment' →
      SameLists (ofComment comment) (ofComment comment')) ∧
    ((∀ comment', Recased comment comment' →
      SaysTheSame (ofComment comment) (ofComment comment')) ↔
      ToolsAgree (ofComment comment).tags) := by
  refine ⟨fun comment' h => h.sameLists, fun hsame => ?_,
    fun hagree comment' h => h.saysTheSame hagree⟩
  constructor
  case extending =>
    exact unanimous_of_same (·.extending.value) (fun c => (sorted_ofComment c).1.extending)
      fun c h => (hsame c h).extending
  case var =>
    exact unanimous_of_same (·.var.value) (fun c => (sorted_ofComment c).1.var) fun c h =>
      (hsame c h).var
  case returning =>
    exact unanimous_of_same (·.returning.value) (fun c => (sorted_ofComment c).1.returning)
      fun c h => (hsame c h).returning
  case params =>
    exact fun n => unanimous_of_same (·.params.find? (·.name == n))
      (fun c => (gathers_ofComment c).find?_params n) fun c h => by rw [(hsame c h).params]
  case usedTrait =>
    exact unanimous_of_same (·.usedTrait.value) (fun c => (sorted_ofComment c).1.usedTrait)
      fun c h => (hsame c h).usedTrait

end Comment

/-- In capital letters the tag for a tool no longer counts before the plain one. -/
theorem recased_return_differs :
    Recased "/**\n * @return array\n * @phpstan-return list<int>\n */"
        "/**\n * @return array\n * @PHPSTAN-return list<int>\n */" ∧
      ¬ SaysTheSame (ofComment "/**\n * @return array\n * @phpstan-return list<int>\n */")
        (ofComment "/**\n * @return array\n * @PHPSTAN-return list<int>\n */") := by
  constructor
  · have htag :
        tagLine?
          (cleanLine (" * ".toList ++ '@' :: ("phpstan-return".toList ++ " list<int>".toList)))
        = some ("phpstan-return".toList, " list<int>".toList) := by decide +kernel
    have hlines :
        Text.splitChars '\n' "/**\n * @return array\n * @phpstan-return list<int>\n */".toList
        = ["/**".toList, " * @return array".toList,
            " * ".toList ++ '@' :: ("phpstan-return".toList ++ " list<int>".toList),
              " */".toList] := by
      decide +kernel
    have hlines' :
        Text.splitChars '\n' "/**\n * @return array\n * @PHPSTAN-return list<int>\n */".toList
        = ["/**".toList, " * @return array".toList,
            " * ".toList ++ '@' :: ("PHPSTAN-return".toList ++ " list<int>".toList),
              " */".toList] := by
      decide +kernel
    rw [Recased, hlines, hlines']
    have hletters : SameLetters "phpstan-return".toList "PHPSTAN-return".toList := by
      unfold SameLetters
      decide +kernel
    have hline := RecasedLine.tag (by decide) htag hletters
    exact .cons (.same _) (.cons (.same _) (.cons hline (.cons (.same _) .nil)))
  · intro hsame
    have htypes := congrArg (Option.map fun tag => tag.type.text) hsame.returning
    have hsmall :
        (ofComment "/**\n * @return array\n * @phpstan-return list<int>\n */").returning.value.map
        (fun tag => tag.type.text) = some "list<int>" := by decide +kernel
    have hcapital :
        (ofComment "/**\n * @return array\n * @PHPSTAN-return list<int>\n */").returning.value.map
        (fun tag => tag.type.text) = some "array" := by decide +kernel
    rw [hsmall, hcapital] at htypes
    exact absurd htypes (by decide)

end DocBlock

end PhpHandbook
