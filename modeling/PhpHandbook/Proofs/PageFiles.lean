import PhpHandbook.Proofs.Building
import PhpHandbook.Proofs.FullNames

/-!
# Pages and the files they are written to

Pages are compared by their paths as texts; a file is found by the pieces of a path between
slashes, and empty pieces do not count.  A path without empty pieces is the text of its pieces, so
pages with such paths that differ are written to different files.  The index has a file of its own.

A path has an empty piece where a namespace is written with underscores alone: nothing is left of
it in kebab case.  Two such paths may differ and still lead to one file.

## Main definitions

* `filePieces`: the pieces of a path that lead to a file.

## Main statements

* `path_eq_of_filePieces_eq`: paths without empty pieces are told apart by their files.
* `empty_mem_split_outputPath_iff`: which names have a path with an empty piece.
* `pages_share_files_by_empty_pieces`: which pages of a run that succeeds may share a file.
-/

namespace PhpHandbook

namespace Text

/-! ### Parts of a text -/

/-- Texts are split like lists. -/
theorem splitChars_eq_splitOn (separator : Char) (cs : List Char) :
    splitChars separator cs = cs.splitOn separator := by
  induction cs with
  | nil => rfl
  | cons c cs ih =>
    obtain ⟨part, parts, hparts⟩ :=
      List.exists_cons_of_ne_nil (List.splitOn_ne_nil separator cs)
    have hcons := List.splitOnP_cons_eq_if_modifyHead (p := (· == separator)) c cs
    rw [← List.splitOn, ← List.splitOn, hparts] at hcons
    rw [splitChars, ih, hparts, hcons]
    simp

/-- **Putting the separator back** between the parts of a text gives the text. -/
theorem intercalate_splitChars (separator : Char) (cs : List Char) :
    [separator].intercalate (splitChars separator cs) = cs := by
  rw [splitChars_eq_splitOn, List.intercalate_splitOn]

/-- Texts with the same parts are the same. -/
theorem split_injective (separator : Char) : Function.Injective (split separator) := by
  intro s t h
  have hparts := List.map_injective_iff.2 (fun _ _ => String.ofList_injective) h
  rw [← String.toList_inj, ← intercalate_splitChars separator s.toList, hparts,
    intercalate_splitChars]

theorem subset_intercalate (separator : Char) {parts : List (List Char)} {part : List Char}
    (h : part ∈ parts) : part ⊆ [separator].intercalate parts := by
  induction parts with
  | nil => cases h
  | cons first parts ih =>
    cases parts with
    | nil => simp_all
    | cons next parts =>
      rw [List.intercalate_cons_cons]
      rcases List.mem_cons.1 h with rfl | h
      · exact fun c hc => List.mem_append_left _ (List.mem_append_left _ hc)
      · exact fun c hc => List.mem_append_right _ (ih h hc)

/-- The characters of a part are characters of the text. -/
theorem mem_of_mem_split {separator c : Char} {s part : String} (hpart : part ∈ split separator s)
    (hc : c ∈ part.toList) : c ∈ s.toList := by
  obtain ⟨cs, hcs, rfl⟩ := List.mem_map.1 hpart
  rw [String.toList_ofList] at hc
  rw [← intercalate_splitChars separator s.toList]
  exact subset_intercalate separator hcs hc

/-- Parts with separators between them, and an ending, are the parts with the ending at the last. -/
theorem splitChars_intercalate_append {separator : Char} {parts : List (List Char)}
    (hne : parts ≠ []) (hparts : ∀ part ∈ parts, separator ∉ part) {ending : List Char}
    (hending : separator ∉ ending) :
    splitChars separator ([separator].intercalate parts ++ ending)
      = parts.dropLast ++ [parts.getLast hne ++ ending] := by
  induction parts with
  | nil => exact absurd rfl hne
  | cons part parts ih =>
    have hpart := hparts part List.mem_cons_self
    cases parts with
    | nil =>
      have hwhole : separator ∉ part ++ ending := by simp [hpart, hending]
      rw [splitChars_eq_splitOn]
      simpa using List.splitOn_eq_singleton hwhole
    | cons next parts =>
      have hmore := ih (List.cons_ne_nil _ _) fun p hp => hparts p (List.mem_cons_of_mem _ hp)
      rw [splitChars_eq_splitOn] at hmore ⊢
      rw [List.intercalate_cons_cons, List.append_assoc, List.append_assoc, List.singleton_append,
        List.splitOn_append_cons_self, List.splitOn_eq_singleton hpart, hmore]
      rfl

/-! ### Kebab case -/

theorem small_ne_nil (c : Char) : small c ≠ [] := by
  unfold small
  split_ifs
  · exact List.cons_ne_nil _ _
  · exact List.cons_ne_nil _ _
  · split
    · exact List.cons_ne_nil _ _
    · exact List.cons_ne_nil _ _

theorem ofNat_ne {d : Char} {n : Nat} (hd : d ≠ '\x00') (hn : d.toNat < n) :
    Char.ofNat n ≠ d := by
  rintro rfl
  by_cases hvalid : n.isValidChar
  · have hchar : Char.ofNat n = Char.ofNatAux n hvalid := dif_pos hvalid
    rw [hchar] at hn
    exact absurd hn (Nat.lt_irrefl n)
  · exact hd (dif_neg hvalid)

/-- A small form in front of the letters is the character itself. -/
theorem eq_of_mem_small {c d : Char} (hd : d ≠ '\x00') (hlow : d.toNat < 65) (h : d ∈ small c) :
    d = c := by
  have hascii : ∀ n < 0x80, (Char.ofNat n).toLower.toNat < 65 →
      (Char.ofNat n).toLower = Char.ofNat n := by decide +kernel
  have htable : ∀ row ∈ smallFormTable.toList, (64 : Int) < row.1 + row.2.2.2 := by
    decide +kernel
  unfold small at h
  split_ifs at h with hsmall hdot
  · have hlower := hascii c.toNat hsmall
    rw [List.mem_singleton] at h
    rw [Char.ofNat_toNat, ← h] at hlower
    exact hlower hlow
  · have hforms : ['i', Char.ofNat 0x307].all (fun e => decide (65 ≤ e.toNat)) = true := by
      decide
    have hletter := of_decide_eq_true (List.all_eq_true.1 hforms d h)
    exact absurd hletter (by omega)
  · split at h
    · next row hrow =>
      have hshift := htable row (Array.mem_toList_iff.2 (Array.mem_of_find?_eq_some hrow))
      have hfrom := Array.find?_some hrow
      simp only [Stride.contains, Bool.and_eq_true, decide_eq_true_eq] at hfrom
      exact absurd (List.mem_singleton.1 h).symm (ofNat_ne hd (by omega))
    · exact List.mem_singleton.1 h

/-- Kebab case leaves nothing of a text exactly if it has only gaps between words. -/
theorem kebabAux_eq_nil_iff (before : Option Char) (written cs : List Char) :
    kebabAux before written cs = [] ↔ written = [] ∧ ∀ c ∈ cs, isWordGap c = true := by
  induction cs generalizing before written with
  | nil => simp [kebabAux]
  | cons c cs ih =>
    rw [kebabAux, List.forall_mem_cons]
    by_cases hgap : isWordGap c = true
    · have hkept : (if written.isEmpty || written.head? == some '-' then written
          else '-' :: written) = [] ↔ written = [] := by
        cases written with
        | nil => simp
        | cons d ds => split_ifs <;> simp
      rw [if_pos hgap, ih, hkept, and_iff_right hgap]
    · rw [if_neg hgap, ih]
      simp [small_ne_nil, hgap]

theorem kebab_eq_empty_iff (s : String) :
    kebab s = "" ↔ ∀ c ∈ s.toList, isWordGap c = true := by
  rw [kebab, ← String.toList_inj, String.toList_ofList, String.toList_empty, kebabAux_eq_nil_iff]
  simp

/-- **The characters of a text in kebab case**: hyphens and small forms. -/
theorem mem_kebabAux {before : Option Char} {written cs : List Char} {d : Char}
    (h : d ∈ kebabAux before written cs) :
    d ∈ '-' :: written ∨ ∃ c ∈ cs, d ∈ small c := by
  induction cs generalizing before written with
  | nil => exact .inl (List.mem_cons_of_mem _ (by simpa [kebabAux] using h))
  | cons c cs ih =>
    -- what is written behind `c` are hyphens, the small form of `c`, and what was written before
    have hnext : ∀ next, (∀ x ∈ next, x ∈ '-' :: written ∨ x ∈ small c) →
        d ∈ kebabAux (some c) next cs →
        d ∈ '-' :: written ∨ ∃ x ∈ c :: cs, d ∈ small x := by
      intro next hall hd
      rcases ih hd with hwritten | ⟨x, hx, hsmall⟩
      · rcases List.mem_cons.1 hwritten with rfl | hwritten
        · exact .inl List.mem_cons_self
        · exact (hall d hwritten).imp_right fun hsmall => ⟨c, List.mem_cons_self, hsmall⟩
      · exact .inr ⟨x, List.mem_cons_of_mem c hx, hsmall⟩
    rw [kebabAux] at h
    by_cases hgap : isWordGap c = true
    · rw [if_pos hgap] at h
      refine hnext _ (fun x hx => .inl ?_) h
      split_ifs at hx
      · exact List.mem_cons_of_mem _ hx
      · exact hx
    · rw [if_neg hgap] at h
      refine hnext _ (fun x hx => ?_) h
      rcases List.mem_append.1 hx with hsmall | hwritten
      · exact .inr (List.mem_reverse.1 hsmall)
      · refine .inl ?_
        split_ifs at hwritten
        · exact hwritten
        · exact List.mem_cons_of_mem _ hwritten

/-- A character in front of the letters is in a text in kebab case only if it is in the text. -/
theorem mem_of_mem_kebab {s : String} {d : Char} (hd : d ≠ '\x00' ∧ d ≠ '-')
    (hlow : d.toNat < 65) (h : d ∈ (kebab s).toList) : d ∈ s.toList := by
  rw [kebab, String.toList_ofList] at h
  rcases mem_kebabAux h with hwritten | ⟨c, hc, hsmall⟩
  · exact absurd (List.mem_singleton.1 hwritten) hd.2
  · exact eq_of_mem_small hd.1 hlow hsmall ▸ hc

end Text

open Files (FileTree)
open Handbook (outputPath)
open Registry (unrooted)

/-- The pieces of a path between slashes **that lead to a file**: empty ones do not count. -/
def filePieces (path : String) : List String :=
  (Text.split '/' path).filter (· ≠ "")

/-- **Paths without empty pieces are told apart by their files.** -/
theorem path_eq_of_filePieces_eq {path other : String} (hpath : "" ∉ Text.split '/' path)
    (hother : "" ∉ Text.split '/' other) (h : filePieces path = filePieces other) :
    path = other := by
  have hall : ∀ {p : String}, "" ∉ Text.split '/' p → filePieces p = Text.split '/' p := by
    intro p hp
    refine List.filter_eq_self.2 fun piece hpiece => ?_
    exact decide_eq_true fun hempty => hp (hempty ▸ hpiece)
  rw [hall hpath, hall hother] at h
  exact Text.split_injective '/' h

/-- A character in front of the letters is in a part of a name in kebab case only if it is in the
name. -/
theorem mem_of_mem_kebab_part {name part : String} {d : Char} (hd : d ≠ '\x00' ∧ d ≠ '-')
    (hlow : d.toNat < 65) (hpart : part ∈ Text.split '\\' (unrooted name))
    (h : d ∈ (Text.kebab part).toList) : d ∈ name.toList := by
  have hunrooted := Text.mem_of_mem_split hpart (Text.mem_of_mem_kebab hd hlow h)
  rw [unrooted, String.toList_ofList] at hunrooted
  exact (List.dropWhile_sublist _).subset hunrooted

/-- **The pieces of the path of a page**: one for each part of the name, behind the directory. -/
theorem split_outputPath {name : String} (hname : '/' ∉ name.toList) :
    ∃ last ∈ (Text.split '\\' (unrooted name)).map Text.kebab,
      Text.split '/' (outputPath name) = "classes"
        :: (((Text.split '\\' (unrooted name)).map Text.kebab).dropLast ++ [last ++ ".html"]) := by
  have hpieces :
      ∀ piece ∈ (Text.split '\\' (unrooted name)).map Text.kebab, '/' ∉ piece.toList :=
    List.forall_mem_map.2 fun part hpart hslash =>
      hname (mem_of_mem_kebab_part (by decide) (by decide) hpart hslash)
  have hne : (Text.split '\\' (unrooted name)).map Text.kebab ≠ [] := by
    simp [Text.split, Text.splitChars_eq_splitOn]
  rw [outputPath]
  generalize (Text.split '\\' (unrooted name)).map Text.kebab = pieces at hpieces hne ⊢
  have hchars : ("classes/" ++ "/".intercalate pieces ++ ".html").toList
      = "classes".toList
        ++ '/' :: (['/'].intercalate (pieces.map String.toList) ++ ".html".toList) := by
    rw [String.toList_append, String.toList_append, String.toList_intercalate, List.append_assoc]
    rfl
  have hlists : pieces.map String.toList ≠ [] := by simpa using hne
  have hending : '/' ∉ ".html".toList := by decide
  refine ⟨pieces.getLast hne, List.getLast_mem hne, ?_⟩
  rw [Text.split, hchars, Text.splitChars_eq_splitOn, List.splitOn_append_cons_self,
    List.splitOn_eq_singleton (by decide), ← Text.splitChars_eq_splitOn,
    Text.splitChars_intercalate_append hlists (List.forall_mem_map.2 hpieces) hending]
  simp [List.map_dropLast]

/-- **A path has an empty piece** exactly where a part of the namespace has only gaps between
words. -/
theorem empty_mem_split_outputPath_iff {name : String} (hname : '/' ∉ name.toList) :
    "" ∈ Text.split '/' (outputPath name) ↔
      ∃ part ∈ (Text.split '\\' (unrooted name)).dropLast,
        ∀ c ∈ part.toList, Text.isWordGap c = true := by
  obtain ⟨last, -, hlast⟩ := split_outputPath hname
  have hclasses : "" ≠ "classes" := by decide
  have hending : "" ≠ last ++ ".html" := by
    intro h
    have hlists := congrArg String.toList h
    rw [String.toList_append] at hlists
    exact absurd hlists.symm (List.append_ne_nil_of_right_ne_nil _ (by decide))
  rw [hlast, List.mem_cons, List.mem_append, List.mem_singleton, ← List.map_dropLast,
    List.mem_map]
  simp only [hclasses, hending, Text.kebab_eq_empty_iff, false_or, or_false]

/-- The page of a class lies in a directory. -/
theorem filePieces_outputPath (name : String) :
    ∃ pieces, filePieces (outputPath name) = "classes" :: pieces := by
  have hchars : ∃ rest, (outputPath name).toList = "classes".toList ++ '/' :: rest :=
    ⟨_, by rw [outputPath, String.toList_append, String.toList_append, List.append_assoc]; rfl⟩
  obtain ⟨rest, hrest⟩ := hchars
  refine ⟨((Text.splitChars '/' rest).map String.ofList).filter (· ≠ ""), ?_⟩
  rw [filePieces, Text.split, hrest, Text.splitChars_eq_splitOn, List.splitOn_append_cons_self,
    ← Text.splitChars_eq_splitOn, ← Text.splitChars_eq_splitOn]
  rfl

/-- **The index has a file of its own.** -/
theorem filePieces_outputPath_ne_index (name : String) :
    filePieces (outputPath name) ≠ filePieces "index.html" := by
  obtain ⟨pieces, hpieces⟩ := filePieces_outputPath name
  have hindex : filePieces "index.html" = ["index.html"] := by decide
  rw [hpieces, hindex]
  intro h
  exact absurd (List.cons.inj h).1 (by decide)

/-! ### Registered names -/

namespace Registry

open Source (IsFullName)

theorem fullName_of_register {reg after : Registry} {path source : String} {origin : Origin}
    {names : List String} (h : reg.register path source origin = .ok (names, after))
    (hreg : ∀ e ∈ reg.entries, IsFullName e.name) :
    ∀ e ∈ after.entries, IsFullName e.name := by
  have hsubmit : (reg.submit ⟨path, source, origin⟩).2 = after := by
    unfold submit
    dsimp only
    rw [h]
  intro e he
  rcases mem_submit (hsubmit ▸ he) with he | he
  · exact hreg e he
  · exact fullName_of_mem_declared he

theorem fullName_of_mem_builtins : ∀ e ∈ builtins.entries, IsFullName e.name := by
  have hempty : ∀ e ∈ empty.entries, IsFullName e.name := fun _ he => nomatch he
  unfold builtins
  -- the text is not read here
  generalize hadded : empty.register _ _ _ = added
  cases added with
  | ok added => exact fullName_of_register hadded hempty
  | error faults => exact hempty

theorem mem_documentedNames {reg : Registry} {name : String} (h : name ∈ reg.documentedNames) :
    ∃ e ∈ reg.entries, e.name = name := by
  rw [documentedNames, List.mem_mergeSort] at h
  obtain ⟨e, he, hname⟩ := List.mem_map.1 h
  exact ⟨e, (List.mem_filter.1 he).1, hname⟩

end Registry

/-- **The path of a full name has an empty piece** exactly where a part of the namespace is made of
underscores. -/
theorem empty_mem_split_outputPath_of_isFullName {name : String} (hfull : Source.IsFullName name)
    (hbegins : Source.beginsName name) :
    "" ∈ Text.split '/' (outputPath name) ↔
      ∃ part ∈ (Text.split '\\' name).dropLast, ∀ c ∈ part.toList, c = '_' := by
  have hgap : ∀ part ∈ (Text.split '\\' name).dropLast, ∀ c ∈ part.toList,
      Text.isWordGap c = true ↔ c = '_' := by
    intro part hpart c hc
    have hmem : c ∈ name.toList :=
      Text.mem_of_mem_split ((List.dropLast_sublist _).subset hpart) hc
    have hblank : c ≠ ' ' := by
      rintro rfl
      exact Source.notMem_of_isFullName hfull (by decide) hmem
    have hhyphen : c ≠ '-' := by
      rintro rfl
      exact Source.notMem_of_isFullName hfull (by decide) hmem
    simp [Text.isWordGap, hblank, hhyphen]
  rw [empty_mem_split_outputPath_iff (Source.notMem_of_isFullName hfull (by decide)),
    Registry.unrooted_of_beginsName hbegins]
  refine exists_congr fun part => and_congr_right fun hpart => ?_
  exact forall₂_congr fun c hc => hgap part hpart c hc

namespace Project

variable {ω : Type} {project : Project ω} {tree : FileTree}

/-- **What is loaded** is called by full names. -/
theorem fullName_of_load {reg : Registry} {report : Report}
    (h : project.load tree = .ok (reg, report)) :
    ∀ e ∈ reg.entries, Source.IsFullName e.name := by
  refine load_keeps (P := fun loaded => ∀ e ∈ loaded.1.entries, Source.IsFullName e.name)
    Registry.fullName_of_mem_builtins (fun {origin loaded file loaded'} hfile hloaded => ?_) h
  unfold registerFile at hfile
  split at hfile
  · cases hfile
  · dsimp only at hfile
    split at hfile
    next names reg hregister =>
      cases hfile
      exact Registry.fullName_of_register hregister hloaded
    · cases hfile
      exact hloaded

/-- **Pages may share a file only where a namespace has a part of underscores.**  A run that does
not fail writes one page for each documented class, and the index.  None of them shares the file of
the index, and two that share a file have different paths, one of which has an empty piece.  That is
where a part of the namespace is made of underscores. -/
theorem pages_share_files_by_empty_pieces (project : Project ω) (tree : FileTree) :
    (∃ e, (project.run tree).1 = .error e) ∨
      ∃ report reg loaded, (project.run tree).1 = .ok report ∧
        project.load tree = .ok (reg, loaded) ∧
        report.pages = reg.documentedNames.map outputPath ++ ["index.html"] ∧
        (∀ name, filePieces (outputPath name) ≠ filePieces "index.html") ∧
        ((reg.documentedNames.map outputPath).Pairwise fun page other =>
          filePieces page = filePieces other →
            page ≠ other ∧ ("" ∈ Text.split '/' page ∨ "" ∈ Text.split '/' other)) ∧
        ∀ name ∈ reg.documentedNames, "" ∈ Text.split '/' (outputPath name) ↔
          ∃ part ∈ (Text.split '\\' name).dropLast, ∀ c ∈ part.toList, c = '_' := by
  cases hrun : (project.run tree).1 with
  | error e => exact .inl ⟨e, rfl⟩
  | ok report =>
    refine .inr ?_
    obtain ⟨prepared, pages, hprepare, rfl⟩ := exists_of_run_eq_ok hrun
    obtain ⟨reg, loaded, hload, -, hnodup, hpaths⟩ := paths_of_prepare hprepare
    refine ⟨_, reg, loaded, rfl, hload, hpaths, filePieces_outputPath_ne_index, ?_, ?_⟩
    · refine hnodup.imp fun {page other} hne hsame => ⟨hne, ?_⟩
      by_contra hfull
      rw [not_or] at hfull
      exact hne (path_eq_of_filePieces_eq hfull.1 hfull.2 hsame)
    · intro name hname
      obtain ⟨e, he, rfl⟩ := Registry.mem_documentedNames hname
      exact empty_mem_split_outputPath_of_isFullName (fullName_of_load hload e he)
        (reg.formed e he).named

end Project

/-- **Two pages in one file**: the classes `Box` and `_\Box` have different paths, and one file. -/
theorem filePieces_of_underscores :
    outputPath "Box" ≠ outputPath "_\\Box" ∧
      filePieces (outputPath "Box") = filePieces (outputPath "_\\Box") ∧
      Project.collision? [] ["Box", "_\\Box"] = none := by
  decide +kernel

end PhpHandbook
