import PhpHandbook.Proofs.Building

/-!
# The files after a run

A page is written in two steps: the directories on its way are made where they are missing, and its
file gets a new content.  The first step changes no file and the second one only that file, so
whatever was at some place stays there, apart from the page itself, and what led somewhere still
leads there.

After a run that does not fail, each page that it lists is in the tree, unless a later page of the
list has the same place: the last one stays.  Places that no page has hold the files they held
before.

## Main definitions

* `Standing`, `FileTree.standing`: what there is at a place.
* `FileTree.WrittenAt`: a tree after writing at some places.
* `Project.IsPlace`: the places of pages.

## Main statements

* `Node.standing_put`: what putting a node at a place changes.
* `FileTree.writtenAt_createDirs`, `FileTree.exists_writtenAt_writeFile`: what making directories
  and writing a file change.
* `Project.writtenAt_writePages`, `Project.standing_writePages`: what writing pages changes, and
  which page stands at a place in the end.
* `Project.files_of_run`: the files after a run that does not fail.
-/

namespace PhpHandbook.Files

/-- What there is at a place. -/
inductive Standing where
  /-- Nothing. -/
  | nothing
  /-- A directory. -/
  | directory
  /-- A file with its bytes. -/
  | file (content : ByteArray)

namespace Node

/-- What there is at a place below a node. -/
def standing (top : Node) (place : Location) : Standing :=
  match top.find? place with
  | none => .nothing
  | some (.dir _) => .directory
  | some (.file content) => .file content

/-- What there is where a node may be. -/
def standing? (place : Location) : Option Node → Standing
  | none => .nothing
  | some node => node.standing place

@[simp]
theorem standing_dir_nil (entries : List (String × Node)) :
    (dir entries).standing [] = .directory :=
  rfl

@[simp]
theorem standing_file_nil (content : ByteArray) : (file content).standing [] = .file content :=
  rfl

/-- A node is something. -/
theorem standing_nil_ne_nothing (node : Node) : node.standing [] ≠ .nothing := by
  cases node <;> simp

/-- Where no directory is, none stands. -/
theorem standing?_nil_ne_directory {node : Option Node} (h : ∀ entries, node ≠ some (.dir entries)) :
    standing? [] node ≠ .directory := by
  cases node with
  | none => simp [standing?]
  | some node =>
    cases node with
    | file content => simp [standing?]
    | dir entries => exact absurd rfl (h entries)

theorem lookup_cons_eq (k key : String) (n : Node) (entries : List (String × Node)) :
    ((k, n) :: entries).lookup key = if key = k then some n else entries.lookup key := by
  rw [List.lookup_cons]
  by_cases h : key = k <;> simp [h, beq_false_of_ne]

theorem lookup_setEntry (name key : String) (node : Node) (entries : List (String × Node)) :
    (setEntry name node entries).lookup key
      = if key = name then some node else entries.lookup key := by
  induction entries with
  | nil => exact lookup_cons_eq name key node []
  | cons entry entries ih =>
    obtain ⟨k, n⟩ := entry
    by_cases hk : k = name
    · subst hk
      rw [setEntry, if_pos rfl, lookup_cons_eq, lookup_cons_eq]
      split <;> rfl
    · rw [setEntry, if_neg hk, lookup_cons_eq, lookup_cons_eq, ih]
      split_ifs <;> simp_all

theorem standing_cons (entries : List (String × Node)) (name : String) (rest : Location) :
    (dir entries).standing (name :: rest) = standing? rest (entries.lookup name) := by
  unfold standing
  rw [find?]
  cases entries.lookup name <;> rfl

/-- **After a node is put at a place** whose directory exists, the node is at and below that place,
and everywhere else is what was there. -/
theorem standing_put {top : Node} {place : Location} (h : top.standing place = .directory)
    (name : String) (new : Node) (other : Location) :
    (top.put (place ++ [name]) new).standing other =
      if place ++ [name] <+: other then new.standing (other.drop (place.length + 1))
      else top.standing other := by
  induction place generalizing top other with
  | nil =>
    match top with
    | .file content => cases h
    | .dir entries =>
      rw [List.nil_append, put, put]
      cases other with
      | nil => rfl
      | cons k rest =>
        rw [standing_cons, standing_cons, lookup_setEntry]
        by_cases hk : k = name
        · simp [hk, standing?]
        · simp [hk, Ne.symm hk]
  | cons d place ih =>
    match top with
    | .file content => cases h
    | .dir entries =>
      rw [standing_cons] at h
      cases hchild : entries.lookup d with
      | none =>
        rw [hchild] at h
        cases h
      | some child =>
        rw [hchild] at h
        rw [List.cons_append, put, hchild, Option.getD_some]
        cases other with
        | nil => rfl
        | cons k rest =>
          rw [standing_cons, standing_cons, lookup_setEntry]
          by_cases hk : k = d
          · subst hk
            simpa [hchild, standing?] using ih h rest
          · simp [hk, Ne.symm hk, List.cons_prefix_cons]

theorem find?_append (top : Node) (place rest : Location) :
    top.find? (place ++ rest) = (top.find? place).bind (find? rest) := by
  induction place generalizing top with
  | nil => rfl
  | cons name place ih =>
    match top with
    | .file content => rfl
    | .dir entries =>
      rw [List.cons_append, find?, find?]
      cases entries.lookup name with
      | none => rfl
      | some child => exact ih child

/-- There is nothing below what is no directory. -/
theorem standing_append_of_ne {top : Node} {place rest : Location}
    (h : top.standing place ≠ .directory) (hrest : rest ≠ []) :
    top.standing (place ++ rest) = .nothing := by
  obtain ⟨name, rest, rfl⟩ := List.exists_cons_of_ne_nil hrest
  unfold standing at h ⊢
  rw [find?_append]
  match hfound : top.find? place with
  | none => rfl
  | some (.file content) => rfl
  | some (.dir entries) =>
    rw [hfound] at h
    exact absurd rfl h

/-- **After a leaf is put** where no directory was, nothing else has changed. -/
theorem standing_put_leaf {top : Node} {place : Location} {name : String} {new : Node}
    (h : top.standing place = .directory) (hplace : top.standing (place ++ [name]) ≠ .directory)
    (hleaf : ∀ piece rest, new.standing (piece :: rest) = .nothing) (other : Location) :
    (top.put (place ++ [name]) new).standing other =
      if other = place ++ [name] then new.standing [] else top.standing other := by
  rw [standing_put h]
  by_cases hprefix : place ++ [name] <+: other
  · obtain ⟨rest, rfl⟩ := hprefix
    have hdrop : (place ++ [name] ++ rest).drop (place.length + 1) = rest := by
      rw [show place.length + 1 = (place ++ [name]).length by simp, List.drop_left]
    rw [if_pos (List.prefix_append _ _), hdrop]
    cases rest with
    | nil => simp
    | cons piece rest =>
      rw [if_neg (by simp), hleaf, standing_append_of_ne hplace (List.cons_ne_nil piece rest)]
  · have hother : other ≠ place ++ [name] := by
      rintro rfl
      exact hprefix (List.prefix_refl _)
    rw [if_neg hprefix, if_neg hother]

/-- What is in a directory. -/
theorem exists_entries_of_standing {top : Node} {place : Location}
    (h : top.standing place = .directory) : ∃ entries, top.find? place = some (.dir entries) ∧
      ∀ name, top.standing (place ++ [name]) = standing? [] (entries.lookup name) := by
  unfold standing at h
  match hfound : top.find? place with
  | none =>
    rw [hfound] at h
    cases h
  | some (.file content) =>
    rw [hfound] at h
    cases h
  | some (.dir entries) =>
    refine ⟨entries, rfl, fun name => ?_⟩
    rw [standing, find?_append, hfound, Option.bind_some, ← standing, standing_cons]

end Node

namespace FileTree

/-- What there is at a place of a tree. -/
def standing (tree : FileTree) (place : Location) : Standing :=
  tree.top.standing place

theorem find?_ne_dir {tree : FileTree} {place : Location} {entries : List (String × Node)}
    (h : tree.standing place ≠ .directory) : tree.top.find? place ≠ some (.dir entries) := by
  intro hfound
  rw [standing, Node.standing, hfound] at h
  exact h rfl

/-- **Following one piece**: there is a directory, and something of that name in it. -/
theorem follow_cons_eq_ok_iff {tree : FileTree} {start place : Location} {segment : String}
    {rest : List String} :
    tree.follow start (segment :: rest) = .ok place ↔ tree.standing start.reverse = .directory ∧
      if isIdle segment then tree.follow start rest = .ok place
      else if segment = ".." then tree.follow (start.drop 1) rest = .ok place
      else tree.standing (segment :: start).reverse ≠ .nothing ∧
        tree.follow (segment :: start) rest = .ok place := by
  rw [follow]
  by_cases hdir : tree.standing start.reverse = .directory
  · obtain ⟨entries, hentries, hbelow⟩ := Node.exists_entries_of_standing hdir
    have hsome : tree.standing (segment :: start).reverse ≠ .nothing ↔
        (entries.lookup segment).isSome = true := by
      rw [standing, List.reverse_cons, hbelow]
      cases entries.lookup segment with
      | none => simp [Node.standing?]
      | some node => simp [Node.standing?, Node.standing_nil_ne_nothing]
    rw [hentries, hsome]
    simp only [hdir, true_and]
    split_ifs <;> simp_all
  · split
    next entries hentries => exact absurd hentries (find?_ne_dir hdir)
    · simp [hdir]
    · simp [hdir]

theorem follow_append {tree : FileTree} {start : Location} {front back : List String} :
    tree.follow start (front ++ back) = tree.follow start front >>= (tree.follow · back) := by
  induction front generalizing start with
  | nil => rfl
  | cons segment front ih =>
    rw [List.cons_append, follow, follow]
    split
    · split_ifs
      · exact ih
      · exact ih
      · exact ih
      · rfl
    · rfl
    · rfl

/-- **A tree after writing at some places**: directories stay, nothing goes missing, and the files
at all other places are the same. -/
structure WrittenAt (places : Location → Prop) (tree after : FileTree) : Prop where
  here : after.here = tree.here
  directory : ∀ place, tree.standing place = .directory → after.standing place = .directory
  something : ∀ place, tree.standing place ≠ .nothing → after.standing place ≠ .nothing
  file : ∀ place, ¬places place → ∀ content,
    after.standing place = .file content ↔ tree.standing place = .file content

namespace WrittenAt

variable {places more : Location → Prop} {tree middle after : FileTree}

theorem refl (places : Location → Prop) (tree : FileTree) : WrittenAt places tree tree :=
  ⟨rfl, fun _ h => h, fun _ h => h, fun _ _ _ => Iff.rfl⟩

theorem mono (h : WrittenAt places tree after) (hmore : ∀ place, places place → more place) :
    WrittenAt more tree after :=
  { h with file := fun place hplace => h.file place fun hmem => hplace (hmore place hmem) }

theorem trans (h : WrittenAt places tree middle) (hmore : WrittenAt places middle after) :
    WrittenAt places tree after where
  here := hmore.here.trans h.here
  directory place hplace := hmore.directory place (h.directory place hplace)
  something place hplace := hmore.something place (h.something place hplace)
  file place hplace content := (hmore.file place hplace content).trans (h.file place hplace content)

/-- **What led somewhere still leads there.** -/
theorem follow_eq_ok (h : WrittenAt places tree after) {segments : List String}
    {start place : Location} (hplace : tree.follow start segments = .ok place) :
    after.follow start segments = .ok place := by
  induction segments generalizing start with
  | nil => exact hplace
  | cons segment rest ih =>
    rw [follow_cons_eq_ok_iff] at hplace ⊢
    obtain ⟨hdir, hrest⟩ := hplace
    refine ⟨h.directory _ hdir, ?_⟩
    split_ifs at hrest ⊢
    · exact ih hrest
    · exact ih hrest
    · exact ⟨h.something _ hrest.1, ih hrest.2⟩

theorem locate_eq_ok (h : WrittenAt places tree after) {path : FilePath} {place : Location}
    (hplace : tree.locate path = .ok place) : after.locate path = .ok place := by
  unfold locate start at hplace ⊢
  rw [h.here]
  split_ifs at hplace ⊢ with hempty
  all_goals
    cases hfollow : tree.follow _ path.segments with
    | error e =>
      rw [hfollow] at hplace
      cases hplace
    | ok found =>
      rw [hfollow] at hplace
      rw [h.follow_eq_ok hfollow]
      exact hplace

end WrittenAt

/-! ### Making directories and writing a file -/

variable {tree after : FileTree}

theorem standing_of_find? {place : Location} {entries : List (String × Node)}
    (h : tree.top.find? place = some (.dir entries)) : tree.standing place = .directory ∧
      ∀ name, tree.standing (place ++ [name]) = Node.standing? [] (entries.lookup name) := by
  have hdir : tree.standing place = .directory := by rw [standing, Node.standing, h]
  obtain ⟨entries', hentries, hbelow⟩ := Node.exists_entries_of_standing hdir
  obtain rfl : entries' = entries := by simpa [h] using hentries.symm
  exact ⟨hdir, hbelow⟩

/-- A new directory or a file in a directory. -/
theorem writtenAt_put {place : Location} {name : String} (new : Node)
    (hdir : tree.standing place = .directory)
    (hplace : tree.standing (place ++ [name]) ≠ .directory)
    (hleaf : ∀ piece rest, new.standing (piece :: rest) = .nothing) :
    WrittenAt (· = place ++ [name]) tree
      { tree with top := tree.top.put (place ++ [name]) new } ∧
      { tree with top := tree.top.put (place ++ [name]) new : FileTree }.standing (place ++ [name])
        = new.standing [] := by
  have hstanding := Node.standing_put_leaf hdir hplace hleaf
  refine ⟨⟨rfl, fun other hother => ?_, fun other hother => ?_,
    fun other hother content => ?_⟩, ?_⟩
  · have hne : other ≠ place ++ [name] := by
      rintro rfl
      exact hplace hother
    rw [standing, hstanding, if_neg hne]
    exact hother
  · rw [standing, hstanding]
    split
    · exact new.standing_nil_ne_nothing
    · exact hother
  · rw [standing, hstanding, if_neg hother]
    rfl
  · rw [standing, hstanding, if_pos rfl]

/-- **Making directories** changes no file. -/
theorem writtenAt_makeDirs {place : Location} {segments : List String}
    (h : tree.makeDirs place segments = .ok after) : WrittenAt (fun _ => False) tree after := by
  induction segments generalizing tree place with
  | nil =>
    obtain rfl := Except.ok.inj h
    exact .refl _ tree
  | cons segment rest ih =>
    rw [makeDirs] at h
    split at h
    next entries hentries =>
      obtain ⟨hdir, hbelow⟩ := standing_of_find? hentries
      by_cases hidle : isIdle segment = true
      · rw [if_pos hidle] at h
        exact ih h
      by_cases hup : segment = ".."
      · rw [if_neg hidle, if_pos hup] at h
        exact ih h
      rw [if_neg hidle, if_neg hup] at h
      split at h
      · exact ih h
      · cases h
      next hnone =>
        -- where there was nothing, there is a directory now
        have hnothing : tree.standing (place.reverse ++ [segment]) = .nothing := by
          rw [hbelow, hnone]
          rfl
        have hplace : tree.standing (place.reverse ++ [segment]) ≠ .directory := by
          simp [hnothing]
        obtain ⟨hat, hmade⟩ := writtenAt_put (.dir []) hdir hplace fun _ _ => rfl
        rw [List.reverse_cons] at h
        refine WrittenAt.trans { hat with file := fun other _ content => ?_ } (ih h)
        by_cases hother : other = place.reverse ++ [segment]
        · rw [hother, hmade, hnothing]
          simp
        · exact hat.file other hother content
    · cases h
    · cases h

theorem writtenAt_createDirs {path : FilePath} (h : tree.createDirs path = .ok after) :
    WrittenAt (fun _ => False) tree after := by
  unfold createDirs at h
  split_ifs at h
  · obtain rfl := Except.ok.inj h
    exact .refl _ tree
  · exact writtenAt_makeDirs h

theorem text_ne_empty_of_getLast? {path : FilePath} {name : String}
    (hlast : path.segments.getLast? = some name) (hname : ¬isIdle name = true) :
    path.text.isEmpty = false := by
  rw [Bool.eq_false_iff, ne_eq, String.isEmpty_iff]
  intro hempty
  have hsegments : path.segments = [""] := by
    rw [FilePath.segments, hempty]
    rfl
  rw [hsegments] at hlast
  obtain rfl := Option.some.inj hlast
  exact hname rfl

/-- A path leads to what its last piece names in the directory of the others. -/
theorem locate_of_follow {path : FilePath} {name : String} {place : Location}
    (hlast : path.segments.getLast? = some name) (hname : ¬(isIdle name = true ∨ name = ".."))
    (hfollow : tree.follow (tree.start path) path.segments.dropLast = .ok place)
    (hdir : tree.standing place.reverse = .directory)
    (hthere : tree.standing (place.reverse ++ [name]) ≠ .nothing) :
    tree.locate path = .ok (place.reverse ++ [name]) := by
  rw [not_or] at hname
  have hpieces : path.segments = path.segments.dropLast ++ [name] :=
    (List.dropLast_append_getLast? _ hlast).symm
  have hwhole : tree.follow (tree.start path) path.segments = .ok (name :: place) := by
    rw [hpieces, follow_append, hfollow]
    refine follow_cons_eq_ok_iff.2 ⟨hdir, ?_⟩
    rw [if_neg hname.1, if_neg hname.2, List.reverse_cons]
    exact ⟨hthere, rfl⟩
  rw [locate, text_ne_empty_of_getLast? hlast hname.1, hwhole]
  simp

/-- **Writing a file** changes that file only. -/
theorem exists_writtenAt_writeFile {path : FilePath} {content : ByteArray}
    (h : tree.writeFile path content = .ok after) :
    ∃ place, after.locate path = .ok place ∧ after.standing place = .file content ∧
      WrittenAt (· = place) tree after := by
  unfold writeFile at h
  cases hlast : path.segments.getLast? with
  | none =>
    rw [hlast] at h
    cases h
  | some name =>
    rw [hlast] at h
    dsimp only at h
    split_ifs at h with hname
    · cases h
    cases hfollow : tree.follow (tree.start path) path.segments.dropLast with
    | error e =>
      rw [hfollow] at h
      cases h
    | ok place =>
      rw [hfollow] at h
      dsimp only [bind, Except.bind] at h
      split at h
      next entries hentries =>
        obtain ⟨hdir, hbelow⟩ := standing_of_find? hentries
        split at h
        · cases h
        next hfile =>
          obtain rfl := Except.ok.inj h
          have hplace : tree.standing (place.reverse ++ [name]) ≠ .directory := by
            rw [hbelow]
            exact Node.standing?_nil_ne_directory hfile
          obtain ⟨hat, hwritten⟩ := writtenAt_put (.file content) hdir hplace
            fun _ _ => rfl
          rw [List.reverse_cons]
          refine ⟨_,
            locate_of_follow hlast hname (hat.follow_eq_ok hfollow) (hat.directory _ hdir) ?_,
            hwritten, hat⟩
          rw [hwritten]
          simp
      · cases h
      · cases h

end FileTree

end PhpHandbook.Files

namespace PhpHandbook.Project

open Files (FilePath FileTree Location)

variable {ω : Type} {project : Project ω} {tree after : FileTree}

/-- Whether a place is that of a page in a list. -/
def IsPlace (project : Project ω) (tree : FileTree) (pages : List (String × String))
    (place : Location) : Prop :=
  ∃ page ∈ pages, tree.locate (project.outputDir.join page.1) = .ok place

theorem exists_writtenAt_writePage {page html : String}
    (h : project.writePage tree page html = .ok after) :
    ∃ place, after.locate (project.outputDir.join page) = .ok place ∧
      after.standing place = .file html.toUTF8 ∧ FileTree.WrittenAt (· = place) tree after := by
  unfold writePage at h
  dsimp only at h
  split at h
  · cases h
  next made hmade =>
    split at h
    · cases h
    next written hwritten =>
      cases h
      obtain ⟨place, hplace, hfile, hat⟩ := FileTree.exists_writtenAt_writeFile hwritten
      refine ⟨place, hplace, hfile, ?_⟩
      exact ((FileTree.writtenAt_createDirs hmade).mono fun _ hnone => hnone.elim).trans hat

/-- **What is written** is written at the places of the pages. -/
theorem writtenAt_writePages {pages : List (String × String)}
    (h : project.writePages tree pages = (.ok (), after)) :
    FileTree.WrittenAt (project.IsPlace after pages) tree after := by
  induction pages generalizing tree with
  | nil =>
    obtain rfl : tree = after := (Prod.mk.inj h).2
    exact .refl _ tree
  | cons page rest ih =>
    unfold writePages at h
    split at h
    · cases (Prod.mk.inj h).1
    next middle hmiddle =>
      obtain ⟨place, hplace, -, hat⟩ := exists_writtenAt_writePage hmiddle
      have hrest := ih h
      refine (hat.mono fun other hother => ?_).trans (hrest.mono fun other hother => ?_)
      · exact ⟨page, .head rest, hother ▸ hrest.locate_eq_ok hplace⟩
      · obtain ⟨other', hmem, hother⟩ := hother
        exact ⟨other', .tail page hmem, hother⟩

/-- **The last page wins**: each page has a place in the end, and it stands there unless a later
page has the same place. -/
theorem standing_writePages {front back : List (String × String)} {page html : String}
    (h : project.writePages tree (front ++ (page, html) :: back) = (.ok (), after)) :
    ∃ place, after.locate (project.outputDir.join page) = .ok place ∧
      (¬project.IsPlace after back place → after.standing place = .file html.toUTF8) := by
  induction front generalizing tree with
  | nil =>
    rw [List.nil_append] at h
    unfold writePages at h
    split at h
    · cases (Prod.mk.inj h).1
    next middle hmiddle =>
      obtain ⟨place, hplace, hfile, -⟩ := exists_writtenAt_writePage hmiddle
      have hback := writtenAt_writePages h
      exact ⟨place, hback.locate_eq_ok hplace, fun hlast => (hback.file place hlast _).2 hfile⟩
  | cons first front ih =>
    rw [List.cons_append] at h
    unfold writePages at h
    split at h
    · cases (Prod.mk.inj h).1
    · exact ih h

/-- **The files after a run** that does not fail.  Each page that it lists has a place, where its
HTML stands unless a later page of the list has that place too.  At places that no page has, the
files are those of before. -/
theorem files_of_run {report : Report} (h : project.run tree = (.ok report, after)) :
    ∃ prepared pages, project.prepare tree = .ok (prepared, pages) ∧
      report = { prepared with pages := pages.map (·.1) } ∧
      (∀ front page html back, pages = front ++ (page, html) :: back →
        ∃ place, after.locate (project.outputDir.join page) = .ok place ∧
          (¬project.IsPlace after back place → after.standing place = .file html.toUTF8)) ∧
      ∀ place, ¬project.IsPlace after pages place → ∀ content,
        after.standing place = .file content ↔ tree.standing place = .file content := by
  obtain ⟨prepared, pages, hprepare, hreport⟩ := exists_of_run_eq_ok (congrArg Prod.fst h)
  rw [run_of_ok hprepare] at h
  have hwritten : project.writePages tree pages = (.ok (), after) := by
    obtain ⟨houtcome, hafter⟩ := Prod.mk.inj h
    refine Prod.ext ?_ hafter
    cases hpages : (project.writePages tree pages).1 with
    | error e =>
      rw [hpages] at houtcome
      cases houtcome
    | ok done => rfl
  refine ⟨prepared, pages, hprepare, hreport, ?_, (writtenAt_writePages hwritten).file⟩
  rintro front page html back rfl
  exact standing_writePages hwritten

end PhpHandbook.Project
