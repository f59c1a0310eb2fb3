import PhpHandbook.Handbook.TypeMarkup
import PhpHandbook.Proofs.FullNames
import PhpHandbook.Proofs.PageFiles

/-!
# Relative links lead to their pages

Without a base address, a link inside the handbook goes back to the output directory, one step for
each slash in the path of the page that it stands on, and from there along the path of its target.
Whoever follows it leaves the page itself and goes on segment by segment.  A path has one segment
more than it has slashes, so the way back ends exactly in the output directory, also where segments
are empty.

The rest is the path of the target, as long as no segment of it leads back and nothing in it looks
like an address of its own.  A path has only the characters of a name in kebab case, and registered
names have neither dots nor colons.

## Main definitions

* `follow`: where a link on a page leads.
* `IsPage`: the pages of a registry.
* `LeadsOn`: a path without steps back that is no address of its own.

## Main statements

* `follow_href`: a link to such a path leads there, from every page.
* `leadsOn_of_isPage`: the paths of all pages are such.
-/

namespace PhpHandbook

namespace Text

/-- A text has one part more than it has separators. -/
theorem length_splitChars (separator : Char) (cs : List Char) :
    (splitChars separator cs).length = cs.count separator + 1 := by
  induction cs with
  | nil => rfl
  | cons c cs ih =>
    rw [splitChars]
    split
    · next h =>
      rw [List.length_cons, ih, h, List.count_cons_self]
    · next h =>
      rw [List.count_cons_of_ne h]
      split <;> simp_all

theorem split_append_separator {s t : String} {separator : Char} (hs : separator ∉ s.toList) :
    split separator (s ++ String.singleton separator ++ t) = s :: split separator t := by
  rw [split, split, String.toList_append, String.toList_append, String.toList_singleton,
    List.append_assoc, List.singleton_append, splitChars_eq_splitOn, List.splitOn_append_cons_self,
    List.splitOn_eq_singleton hs, splitChars_eq_splitOn]
  simp

/-- A character that is no separator is in one of the parts. -/
theorem exists_mem_split {s : String} {separator d : Char} (hd : d ∈ s.toList)
    (hne : d ≠ separator) : ∃ part ∈ split separator s, d ∈ part.toList := by
  have hmem : ∀ parts : List (List Char), d ∈ [separator].intercalate parts →
      ∃ part ∈ parts, d ∈ part := by
    intro parts
    induction parts with
    | nil => exact fun h => nomatch h
    | cons first parts ih =>
      cases parts with
      | nil => simp
      | cons next parts =>
        rw [List.intercalate_cons_cons, List.append_assoc]
        intro h
        rcases List.mem_append.1 h with h | h
        · exact ⟨first, List.mem_cons_self, h⟩
        · obtain ⟨part, hpart, hin⟩ := ih (List.mem_of_ne_of_mem hne h)
          exact ⟨part, List.mem_cons_of_mem first hpart, hin⟩
  rw [← intercalate_splitChars separator s.toList] at hd
  obtain ⟨part, hpart, hin⟩ := hmem _ hd
  exact ⟨String.ofList part, List.mem_map_of_mem hpart, by rwa [String.toList_ofList]⟩

/-- A pattern occurs only in texts that have its characters. -/
theorem subset_of_occursInChars {pattern cs : List Char} (h : occursInChars pattern cs = true) :
    pattern ⊆ cs := by
  induction cs with
  | nil =>
    rw [occursInChars, List.isEmpty_iff] at h
    simp [h]
  | cons c cs ih =>
    rw [occursInChars, Bool.or_eq_true, List.isPrefixOf_iff_prefix] at h
    rcases h with h | h
    · exact h.subset
    · exact fun d hd => List.mem_cons_of_mem c (ih h hd)

end Text

namespace Handbook

open Registry (registerAll unrooted)
open Source (IsFullName notMem_of_isFullName)

/-! ### Following links -/

/-- One step along a link: two dots lead one step back, any other segment leads on. -/
def stepTo (place : List String) (segment : String) : List String :=
  if segment = ".." then place.dropLast else place ++ [segment]

/-- **Where a link on a page leads**: from beside the page, step by step along the segments of the
link. -/
def follow (page link : String) : String :=
  "/".intercalate ((Text.split '/' link).foldl stepTo (Text.split '/' page).dropLast)

/-- As many steps back as a place has segments lead to the front. -/
theorem foldl_stepTo_back (n : Nat) (place : List String) (h : place.length = n) :
    (List.replicate n "..").foldl stepTo place = [] := by
  induction n generalizing place with
  | zero => exact List.eq_nil_of_length_eq_zero h
  | succ n ih =>
    rw [List.replicate_succ, List.foldl_cons, stepTo, if_pos rfl]
    exact ih _ (by rw [List.length_dropLast, h, Nat.add_sub_cancel])

/-- Without steps back all segments are appended. -/
theorem foldl_stepTo_on {segments : List String} (h : ".." ∉ segments) (place : List String) :
    segments.foldl stepTo place = place ++ segments := by
  induction segments generalizing place with
  | nil => rw [List.foldl_nil, List.append_nil]
  | cons segment segments ih =>
    rw [List.mem_cons, not_or] at h
    rw [List.foldl_cons, stepTo, if_neg (Ne.symm h.1), ih h.2, List.append_assoc,
      List.singleton_append]

/-- The way back has one segment for each slash. -/
theorem split_join_replicate_append (n : Nat) (path : String) :
    Text.split '/' (String.join (List.replicate n "../") ++ path)
      = List.replicate n ".." ++ Text.split '/' path := by
  induction n with
  | zero => simp
  | succ n ih =>
    have hstep : String.join (List.replicate (n + 1) "../") ++ path
        = ".." ++ String.singleton '/' ++ (String.join (List.replicate n "../") ++ path) := by
      rw [List.replicate_succ, String.join_cons, String.append_assoc]
      rfl
    rw [hstep, Text.split_append_separator (by decide), ih, List.replicate_succ, List.cons_append]

/-- A path without steps back that is no address of its own. -/
structure LeadsOn (path : String) : Prop where
  up_notMem : ".." ∉ Text.split '/' path
  colon_notMem : ':' ∉ path.toList
  head_ne : path.toList.head? ≠ some '/'

/-- Without a base address all links to such a path are relative. -/
theorem LeadsOn.href_eq {path : String} (h : LeadsOn path) {links : Links}
    (hbase : links.baseUrl = "") (page : String) :
    links.href page path = relativeRoot page ++ path := by
  have haddress : Text.occursIn "://" path = false := by
    by_contra hoccurs
    have hsubset := Text.subset_of_occursInChars (Bool.of_not_eq_false hoccurs)
    exact h.colon_notMem (hsubset (by decide))
  have hroot : "/".toList.isPrefixOf path.toList = false := by
    by_contra hprefix
    obtain ⟨rest, hrest⟩ := List.isPrefixOf_iff_prefix.1 (Bool.of_not_eq_false hprefix)
    exact h.head_ne (by rw [← hrest]; rfl)
  rw [Links.href, hbase, haddress, hroot]
  rfl

/-- **A link leads to its target**, from whatever page it stands on. -/
theorem follow_href {path : String} (h : LeadsOn path) {links : Links} (hbase : links.baseUrl = "")
    (page : String) : follow page (links.href page path) = path := by
  have hplace : (Text.split '/' page).dropLast.length = page.toList.count '/' := by
    rw [List.length_dropLast, Text.split, List.length_map, Text.length_splitChars,
      Nat.add_sub_cancel]
  have hparts : "/".intercalate (Text.split '/' path) = path := by
    rw [← String.toList_inj, String.toList_intercalate, Text.split, List.map_map]
    simp only [Function.comp_def, String.toList_ofList, List.map_id']
    exact Text.intercalate_splitChars '/' path.toList
  rw [h.href_eq hbase, follow, relativeRoot, split_join_replicate_append, List.foldl_append,
    foldl_stepTo_back _ _ hplace, foldl_stepTo_on h.up_notMem, List.nil_append, hparts]

/-- Empty segments are segments. -/
example : follow "classes//box.html" "../../classes/app/model/box.html"
    = "classes/app/model/box.html" := by
  decide

/-! ### The paths of pages -/

/-- **The pages of a registry**: the index, and one page for each name. -/
def IsPage (reg : Registry) (path : String) : Prop :=
  path = "index.html" ∨ ∃ e : reg.Entry, path = outputPath e.1.name

theorem leadsOn_outputPath {name : String} (h : IsFullName name) : LeadsOn (outputPath name) := by
  have hdot : '.' ∉ name.toList := notMem_of_isFullName h (by decide)
  have hcolon : ':' ∉ name.toList := notMem_of_isFullName h (by decide)
  obtain ⟨last, hmem, hlast⟩ := split_outputPath (notMem_of_isFullName h (by decide))
  have hpiece : ∀ piece ∈ (Text.split '\\' (unrooted name)).map Text.kebab,
      '.' ∉ piece.toList ∧ ':' ∉ piece.toList :=
    List.forall_mem_map.2 fun part hpart =>
      ⟨fun hkebab => hdot (mem_of_mem_kebab_part (by decide) (by decide) hpart hkebab),
        fun hkebab => hcolon (mem_of_mem_kebab_part (by decide) (by decide) hpart hkebab)⟩
  refine ⟨fun hback => ?_, fun hin => ?_, ?_⟩
  · rw [hlast, List.mem_cons, List.mem_append, List.mem_singleton] at hback
    rcases hback with hclasses | hback | hfile
    · exact absurd hclasses (by decide)
    · exact (hpiece ".." ((List.dropLast_sublist _).subset hback)).1 (by decide)
    · have hlength : "..".length = last.length + ".html".length := by
        rw [hfile, String.length_append]
      have hends : "..".length < ".html".length := by decide
      omega
  · obtain ⟨segment, hsegment, hin⟩ := Text.exists_mem_split hin (show ':' ≠ '/' by decide)
    rw [hlast, List.mem_cons, List.mem_append, List.mem_singleton] at hsegment
    rcases hsegment with rfl | hsegment | rfl
    · exact absurd hin (by decide)
    · exact (hpiece segment ((List.dropLast_sublist _).subset hsegment)).2 hin
    · rw [String.toList_append, List.mem_append] at hin
      rcases hin with hin | hin
      · exact (hpiece last hmem).2 hin
      · exact absurd hin (by decide)
  · have hfirst : (outputPath name).toList.head? = some 'c' := by
      rw [outputPath, String.toList_append, String.toList_append, List.append_assoc]
      rfl
    rw [hfirst]
    decide

/-- **The paths of all pages lead on**, whatever sources are registered. -/
theorem leadsOn_of_isPage {submissions : List Submission} {path : String}
    (h : IsPage (registerAll submissions) path) : LeadsOn path := by
  rcases h with rfl | ⟨e, rfl⟩
  · exact ⟨by decide, by decide, by decide⟩
  · exact leadsOn_outputPath (Registry.fullName_of_mem_registerAll e.2)

end Handbook

end PhpHandbook
