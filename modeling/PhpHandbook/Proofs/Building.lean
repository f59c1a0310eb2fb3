import PhpHandbook.Project
import PhpHandbook.Proofs.Accord

/-!
# All pages before the first is written

Making a handbook has three steps that may fail: the sources are loaded, the pages of the
documented classes are compared by their paths, and every page is rendered.  Only then is the first
page written.  So whatever goes wrong before leaves the files alone, and a run that writes and one
that does not go wrong in the same way.

What an error says tells the step it comes from: loading gives no collisions, rendering only types
without a resolved form, and writing only pages that cannot be written.

## Main definitions

* `Registry.documentedNames`: the names of the classes with a page, in ascending order.
* `FirstCollision`: the first name in a list whose page is also that of an earlier name.
* `BuildError.Writes`: an error of writing.

## Main statements

* `load_error`, `prepare_eq_collision_iff`, `prepare_error`: the errors of each step.
* `paths_of_prepare`: the paths of the pages.
* `build_all_or_nothing`: what a run and a check leave behind and answer.
-/

namespace PhpHandbook

open Files (FilePath FileTree FileError)
open Handbook (Chapter Query Gather Run ResolveError outputPath chapterOf documented)
open Registry (Origin)

variable {ω : Type} {project : Project ω} {tree : FileTree}

/-! ### Postconditions -/

/-- A fold that fails does so at one of its steps. -/
theorem error_of_foldlM {ε σ α : Type} {step : σ → α → Except ε σ} {P : ε → Prop}
    (hstep : ∀ s a e, step s a = .error e → P e) {as : List α} {s : σ} {e : ε}
    (h : as.foldlM step s = .error e) : P e := by
  induction as generalizing s with
  | nil => cases h
  | cons a as ih =>
    rw [List.foldlM_cons] at h
    cases hs : step s a with
    | error e' =>
      rw [hs] at h
      cases h
      exact hstep s a e hs
    | ok s' =>
      rw [hs] at h
      exact ih h

/-- What each step of a fold keeps holds at its end. -/
theorem kept_by_foldlM {ε σ α : Type} {step : σ → α → Except ε σ} {P : σ → Prop}
    (hstep : ∀ s a s', step s a = .ok s' → P s → P s') {as : List α} {s s' : σ}
    (h : as.foldlM step s = .ok s') (hs : P s) : P s' := by
  induction as generalizing s with
  | nil =>
    cases h
    exact hs
  | cons a as ih =>
    rw [List.foldlM_cons] at h
    cases hnext : step s a with
    | error e =>
      rw [hnext] at h
      cases h
    | ok next =>
      rw [hnext] at h
      exact ih h (hstep s a next hnext hs)

namespace Handbook.Query

variable {reg : Registry} {α β : Type}

/-- What a query answers, where it does not fail, has a property. -/
def Yields (q : Query reg α) (P : α → Prop) : Prop :=
  ∀ (run : Run reg) (a : α), (q.run.run run).1 = .ok a → P a

theorem Yields.bind {q : Query reg α} {k : α → Query reg β} {P : α → Prop} {Q : β → Prop}
    (h : q.Yields P) (hk : ∀ a, P a → (k a).Yields Q) : (q >>= k).Yields Q := by
  intro run b hb
  simp only [ExceptT.run_bind, StateT.run_bind] at hb
  -- the second query starts in the run that the first one has left behind
  rcases hq : q.run.run run with ⟨e | a, run'⟩
  · rw [hq] at hb
    cases hb
  · rw [hq] at hb
    exact hk a (h run a (by rw [hq])) run' b hb

theorem yields_pure {P : α → Prop} {a : α} (h : P a) : Yields (pure a : Query reg α) P := by
  intro run b hb
  cases hb
  exact h

theorem yields_true (q : Query reg α) : q.Yields fun _ => True :=
  fun _ _ _ => trivial

/-- Queries for each item of a list answer item by item. -/
theorem yields_mapM {γ δ : Type} {f : γ → Query reg α} (label : γ → δ) (shown : α → δ)
    (h : ∀ c, (f c).Yields fun a => shown a = label c) (cs : List γ) :
    (cs.mapM f).Yields fun as => as.map shown = cs.map label := by
  induction cs with
  | nil =>
    rw [List.mapM_nil]
    exact yields_pure rfl
  | cons c cs ih =>
    rw [List.mapM_cons]
    refine (h c).bind fun a ha => ih.bind fun as has => yields_pure ?_
    rw [List.map_cons, List.map_cons, ha, has]

end Handbook.Query

/-! ### Loading sources -/

namespace BuildError

/-- Whether an error arises while sources are loaded. -/
def Loads : BuildError ω → Prop
  | settings _ | missingSource _ | unwalkable .. | unreadable .. => True
  | _ => False

/-- Whether an error arises while pages are written. -/
def Writes : BuildError ω → Prop
  | unwritable .. => True
  | _ => False

end BuildError

namespace Project

variable {patterns : List PathPattern}

theorem discover_error {path : String} {e : BuildError ω}
    (h : project.discover tree patterns path = .error e) : e.Loads := by
  unfold discover at h
  dsimp only at h
  split at h
  · split at h
    · cases h
      trivial
    · cases h
  · cases h
    trivial

theorem registerFile_error {origin : Origin} {loaded : Registry × Report} {file : FilePath}
    {e : BuildError ω} (h : project.registerFile tree origin loaded file = .error e) :
    e.Loads := by
  unfold registerFile at h
  split at h
  · cases h
    trivial
  · dsimp only at h
    split at h <;> cases h

theorem registerPath_error {loaded : Registry × Report} {source : String × Origin}
    {e : BuildError ω} (h : project.registerPath tree patterns loaded source = .error e) :
    e.Loads := by
  unfold registerPath at h
  cases hfiles : project.discover tree patterns source.1 with
  | error e' =>
    rw [hfiles] at h
    cases h
    exact discover_error hfiles
  | ok files =>
    rw [hfiles] at h
    exact error_of_foldlM (fun _ _ _ => registerFile_error) h

/-- **Loading** gives only errors of loading. -/
theorem load_error {e : BuildError ω} (h : project.load tree = .error e) : e.Loads := by
  unfold load at h
  simp only at h
  split at h
  · cases h
    trivial
  · split at h
    · cases h
      trivial
    · exact error_of_foldlM (fun _ _ _ => registerPath_error) h

theorem registerFile_pages {origin : Origin} {loaded loaded' : Registry × Report} {file : FilePath}
    (h : project.registerFile tree origin loaded file = .ok loaded') :
    loaded'.2.pages = loaded.2.pages := by
  unfold registerFile at h
  split at h
  · cases h
  · dsimp only at h
    split at h <;>
      · cases h
        rfl

/-- What every source keeps holds of what is loaded. -/
theorem load_keeps {P : Registry × Report → Prop} (hfirst : P (Registry.builtins, {}))
    (hstep : ∀ {origin loaded file loaded'},
      project.registerFile tree origin loaded file = .ok loaded' → P loaded → P loaded')
    {loaded : Registry × Report} (h : project.load tree = .ok loaded) : P loaded := by
  unfold load at h
  dsimp only at h
  split at h
  · cases h
  · split at h
    · cases h
    · refine kept_by_foldlM (fun before source after hpath hbefore => ?_) h hfirst
      unfold registerPath at hpath
      cases hfiles : project.discover tree _ source.1 with
      | error e =>
        rw [hfiles] at hpath
        cases hpath
      | ok files =>
        rw [hfiles] at hpath
        exact kept_by_foldlM (fun _ _ _ => hstep) hpath hbefore

/-- Loading lists no pages. -/
theorem load_pages {loaded : Registry × Report} (h : project.load tree = .ok loaded) :
    loaded.2.pages = [] :=
  load_keeps (P := fun loaded => loaded.2.pages = []) rfl
    (fun hfile hloaded => (registerFile_pages hfile).trans hloaded) h

end Project

/-! ### Documented classes -/

/-- **The names of the classes with a page**, in ascending order. -/
def Registry.documentedNames (reg : Registry) : List String :=
  ((reg.entries.filter (·.origin == .project)).map (·.name)).mergeSort (· ≤ ·)

namespace Handbook

variable {reg : Registry}

/-- Chapters that are opened one after the other are about the declarations asked for. -/
theorem entries_of_mapM_chapterOf (es : List reg.Entry) (run : Run reg) (h : run.contents.Sound) :
    ((es.mapM chapterOf).run run).1.map Chapter.entry = es := by
  induction es generalizing run with
  | nil => rfl
  | cons e es ih =>
    obtain ⟨hsound, -, -, hentry⟩ := h.enter e
    have hrun : (((e :: es).mapM chapterOf).run run).1
        = (run.contents.enter e.1.name e).1 :: ((es.mapM chapterOf).run
            { run with contents := (run.contents.enter e.1.name e).2 }).1 := by
      rw [List.mapM_cons]
      rfl
    rw [hrun, List.map_cons, hentry, ih _ hsound]

/-- **The chapters with a page** stand in the order of their names. -/
theorem names_of_documented (reg : Registry) :
    ((@documented reg).run {}).1.map Chapter.name = reg.documentedNames := by
  have hentries := entries_of_mapM_chapterOf
    ((reg.entries.attach.filter fun e => e.1.origin == .project).mergeSort
      fun a b => a.1.name ≤ b.1.name) {} Contents.sound_empty
  have hname : (Chapter.name : Chapter reg → String) = (fun e => e.1.name) ∘ Chapter.entry :=
    rfl
  rw [documented, hname, ← List.map_map, hentries,
    List.map_mergeSort (s := (· ≤ ·)) (by simp), Registry.documentedNames]
  congr 1
  have hfilter : (reg.entries.attach.filter fun e => e.1.origin == .project).map (·.1)
      = reg.entries.filter (·.origin == .project) := by
    have hcomp : (fun e : reg.Entry => e.1.origin == .project)
        = (fun e : Registry.ClassEntry => e.origin == .project) ∘ Subtype.val := rfl
    rw [hcomp, ← List.filter_map, List.attach_map_subtype_val]
  rw [← hfilter, List.map_map]
  rfl

end Handbook

/-! ### Pages with the same path -/

/-- **The first collision** in a list of names: `second` is the first name with the same page as an
earlier one, and `first` is that one. -/
def FirstCollision (names : List String) (page first second : String) : Prop :=
  ∃ before after, names = before ++ second :: after ∧ (before.map outputPath).Nodup ∧
    first ∈ before ∧ outputPath first = page ∧ outputPath second = page

namespace Project

/-- A name without a predecessor has a page that has not been seen. -/
theorem path_not_mem_of_find? {seen : List String} {name : String}
    (h : seen.find? (outputPath · == outputPath name) = none) :
    outputPath name ∉ seen.map outputPath := by
  intro hmem
  obtain ⟨f, hf, hpath⟩ := List.mem_map.1 hmem
  exact List.find?_eq_none.1 h f hf (by simp [hpath])

/-- What a search finds behind names that have been seen and have different pages. -/
theorem collision?_eq_some_iff (seen names : List String) {page first second : String}
    (hseen : (seen.map outputPath).Nodup) :
    collision? seen names = some (page, first, second) ↔
      ∃ before after, names = before ++ second :: after ∧
        ((seen ++ before).map outputPath).Nodup ∧ first ∈ seen ++ before ∧
        outputPath first = page ∧ outputPath second = page := by
  induction names generalizing seen with
  | nil => simp [collision?]
  | cons name names ih =>
    unfold collision?
    cases hfind : seen.find? (outputPath · == outputPath name) with
    | some f =>
      have hf : f ∈ seen := List.mem_of_find?_eq_some hfind
      have hpath : outputPath f = outputPath name := by simpa using List.find?_some hfind
      constructor
      · intro h
        cases h
        exact ⟨[], names, rfl, by simpa using hseen, by simpa using hf, hpath, rfl⟩
      · rintro ⟨before, after, hnames, hnodup, hfirst, hpage, hpage'⟩
        cases before with
        | nil =>
          -- names that have been seen have different pages, so there is one candidate only
          obtain ⟨rfl, rfl⟩ : name = second ∧ names = after := by simpa using hnames
          have hsame : first = f := List.inj_on_of_nodup_map hseen (by simpa using hfirst) hf
            (hpage.trans (hpage'.symm.trans hpath.symm))
          simp [hsame, hpage']
        | cons x before =>
          obtain ⟨rfl, rfl⟩ : name = x ∧ names = before ++ second :: after := by
            simpa using hnames
          have hsame : f = name := List.inj_on_of_nodup_map hnodup
            (List.mem_append_left _ hf) (List.mem_append_right _ List.mem_cons_self) hpath
          rw [List.map_append, List.nodup_append] at hnodup
          exact absurd rfl (hnodup.2.2 _ (List.mem_map_of_mem (hsame ▸ hf)) _ (by simp))
    | none =>
      have hnew := path_not_mem_of_find? hfind
      have hseen' : ((seen ++ [name]).map outputPath).Nodup := by
        rw [List.map_append, List.map_singleton, ← List.concat_eq_append]
        exact hseen.concat hnew
      rw [ih _ hseen']
      constructor
      · rintro ⟨before, after, rfl, hrest⟩
        exact ⟨name :: before, after, rfl, by simpa using hrest⟩
      · rintro ⟨before, after, hnames, hnodup, hfirst, hpage, hpage'⟩
        cases before with
        | nil =>
          obtain ⟨rfl, rfl⟩ : name = second ∧ names = after := by simpa using hnames
          exact absurd (List.mem_map.2 ⟨first, by simpa using hfirst, hpage.trans hpage'.symm⟩)
            hnew
        | cons x before =>
          obtain ⟨rfl, rfl⟩ : name = x ∧ names = before ++ second :: after := by
            simpa using hnames
          exact ⟨before, after, rfl,
            by simpa using hnodup, by simpa using hfirst, hpage, hpage'⟩

theorem collision?_eq_none_iff (seen names : List String) (hseen : (seen.map outputPath).Nodup) :
    collision? seen names = none ↔ ((seen ++ names).map outputPath).Nodup := by
  induction names generalizing seen with
  | nil => simpa [collision?] using hseen
  | cons name names ih =>
    unfold collision?
    cases hfind : seen.find? (outputPath · == outputPath name) with
    | some f =>
      have hf : f ∈ seen := List.mem_of_find?_eq_some hfind
      have hpath : outputPath f = outputPath name := by simpa using List.find?_some hfind
      simp only [reduceCtorEq, false_iff, List.map_append, List.nodup_append]
      rintro ⟨-, -, hdisjoint⟩
      exact hdisjoint _ (List.mem_map_of_mem hf) _ (by simp) hpath
    | none =>
      have hseen' : ((seen ++ [name]).map outputPath).Nodup := by
        rw [List.map_append, List.map_singleton, ← List.concat_eq_append]
        exact hseen.concat (path_not_mem_of_find? hfind)
      rw [ih _ hseen', List.append_assoc, List.singleton_append]

theorem exists_firstCollision_iff (names : List String) :
    (∃ page first second, FirstCollision names page first second) ↔
      ¬(names.map outputPath).Nodup := by
  have hnone := collision?_eq_none_iff [] names List.nodup_nil
  rw [List.nil_append] at hnone
  rw [← hnone]
  constructor
  · rintro ⟨page, first, second, h⟩
    rw [(collision?_eq_some_iff [] names List.nodup_nil).2 h]
    simp
  · intro h
    obtain ⟨⟨page, first, second⟩, hfound⟩ := Option.ne_none_iff_exists'.1 h
    exact ⟨page, first, second, (collision?_eq_some_iff [] names List.nodup_nil).1 hfound⟩

/-! ### Before the first page is written -/

/-- The pages that are rendered have the paths of their chapters, and the index comes last. -/
theorem render_yields {reg : Registry} (project : Project ω) (chapters : List (Chapter reg)) :
    (project.render chapters).Yields fun pages =>
      pages.map (·.1) = chapters.map (fun c => outputPath c.name) ++ ["index.html"] := by
  unfold render
  refine (Query.yields_mapM (fun c : Chapter reg => outputPath c.name) Prod.fst
    (fun c => ?_) chapters).bind fun pages hpages => ?_
  · exact (Query.yields_true _).bind fun html _ => Query.yields_pure rfl
  · refine (Query.yields_true _).bind fun index _ => Query.yields_pure ?_
    rw [List.map_append, hpages, List.map_singleton]

/-- **What is prepared** once the sources are loaded. -/
theorem prepare_of_load {reg : Registry} {report : Report}
    (h : project.load tree = .ok (reg, report)) :
    project.prepare tree =
      match collision? [] reg.documentedNames with
      | some (page, first, second) => .error (.collision page first second)
      | none =>
        match ((project.render ((@documented reg).run {}).1).run.run
            ((@documented reg).run {}).2).1 with
        | .ok pages => .ok ({ report with structures := reg.documentedNames.length }, pages)
        | .error e => .error (.unresolved e) := by
  rw [← Handbook.names_of_documented, List.length_map]
  unfold prepare
  rw [h]
  rfl

theorem prepare_of_load_error {e : BuildError ω} (h : project.load tree = .error e) :
    project.prepare tree = .error e := by
  unfold prepare
  rw [h]
  rfl

/-- **A collision is found** exactly when the sources are loaded and two classes have the same
page. -/
theorem prepare_eq_collision_iff {page first second : String} :
    project.prepare tree = .error (.collision page first second) ↔
      ∃ reg report, project.load tree = .ok (reg, report) ∧
        FirstCollision reg.documentedNames page first second := by
  cases hload : project.load tree with
  | error e =>
    have he : e.Loads := load_error hload
    rw [prepare_of_load_error hload]
    constructor
    · intro h
      cases h
      exact he.elim
    · rintro ⟨reg, report, h, -⟩
      cases h
  | ok loaded =>
    obtain ⟨reg, report⟩ := loaded
    have hfound : FirstCollision reg.documentedNames page first second ↔
        collision? [] reg.documentedNames = some (page, first, second) :=
      (collision?_eq_some_iff [] _ List.nodup_nil).symm
    rw [prepare_of_load hload]
    constructor
    · intro h
      refine ⟨reg, report, rfl, hfound.2 ?_⟩
      cases hcollision : collision? [] reg.documentedNames with
      | some found =>
        rw [hcollision] at h
        cases h
        rfl
      | none =>
        rw [hcollision] at h
        simp only at h
        split at h <;> cases h
    · rintro ⟨reg', report', h, hcollision⟩
      cases h
      rw [hfound.1 hcollision]

/-- Nothing is written before all pages are there. -/
theorem prepare_error {e : BuildError ω} (h : project.prepare tree = .error e) : ¬e.Writes := by
  cases hload : project.load tree with
  | error e' =>
    have he' : e'.Loads := load_error hload
    rw [prepare_of_load_error hload] at h
    obtain rfl : e' = e := Except.error.inj h
    cases e' with
    | unwritable path cause => exact he'.elim
    | _ => exact id
  | ok loaded =>
    rw [prepare_of_load hload] at h
    split at h
    · cases h
      exact id
    · split at h
      · cases h
      · cases h
        exact id

/-- **The pages that are prepared**: one for each documented class, with different paths, and the
index. -/
theorem paths_of_prepare {report : Report} {pages : List (String × String)}
    (h : project.prepare tree = .ok (report, pages)) :
    ∃ reg loaded, project.load tree = .ok (reg, loaded) ∧
      report = { loaded with structures := reg.documentedNames.length } ∧
      (reg.documentedNames.map outputPath).Nodup ∧
      pages.map (·.1) = reg.documentedNames.map outputPath ++ ["index.html"] := by
  cases hload : project.load tree with
  | error e =>
    rw [prepare_of_load_error hload] at h
    cases h
  | ok loaded =>
    obtain ⟨reg, loaded⟩ := loaded
    rw [prepare_of_load hload] at h
    split at h
    · cases h
    · next hnone =>
      split at h
      · next pages' hpages =>
        cases h
        refine ⟨reg, loaded, rfl, rfl, ?_, ?_⟩
        · exact (collision?_eq_none_iff [] _ List.nodup_nil).1 hnone
        · rw [render_yields project _ _ _ hpages, ← Handbook.names_of_documented, List.map_map]
          rfl
      · cases h

theorem writePage_error {page html : String} {e : BuildError ω}
    (h : project.writePage tree page html = .error e) : e.Writes := by
  unfold writePage at h
  simp only at h
  split at h
  · rw [← Except.error.inj h]
    trivial
  · split at h
    · rw [← Except.error.inj h]
      trivial
    · cases h

/-- **Writing** gives only errors of writing. -/
theorem writePages_error {pages : List (String × String)} {e : BuildError ω}
    (h : (project.writePages tree pages).1 = .error e) : e.Writes := by
  induction pages generalizing tree with
  | nil => cases h
  | cons page pages ih =>
    unfold writePages at h
    split at h
    · next e' he' =>
      obtain rfl : e' = e := Except.error.inj h
      exact writePage_error he'
    · exact ih h

/-! ### Runs and checks -/

theorem execute_of_error {e : BuildError ω} (h : project.prepare tree = .error e) (writes : Bool) :
    project.execute writes tree = (.error e, tree) := by
  rw [execute, h]

theorem execute_false_of_ok {report : Report} {pages : List (String × String)}
    (h : project.prepare tree = .ok (report, pages)) :
    project.execute false tree = (.ok report, tree) := by
  rw [execute, h]
  rfl

theorem run_of_ok {report : Report} {pages : List (String × String)}
    (h : project.prepare tree = .ok (report, pages)) :
    project.run tree = ((project.writePages tree pages).1.map fun _ =>
      { report with pages := pages.map (·.1) }, (project.writePages tree pages).2) := by
  rw [run, execute, h]
  rfl

/-- **A check** succeeds where everything can be prepared. -/
theorem check_eq_ok_iff {report : Report} :
    project.check tree = .ok report ↔ ∃ pages, project.prepare tree = .ok (report, pages) := by
  cases h : project.prepare tree with
  | error e => simp [check, execute_of_error h]
  | ok prepared =>
    obtain ⟨prepared, pages⟩ := prepared
    simp [check, execute_false_of_ok h]

theorem check_eq_error_iff {e : BuildError ω} :
    project.check tree = .error e ↔ project.prepare tree = .error e := by
  cases h : project.prepare tree with
  | error e' => simp [check, execute_of_error h]
  | ok prepared => simp [check, execute_false_of_ok h]

/-- **A run** that succeeds lists the pages that were prepared. -/
theorem exists_of_run_eq_ok {report : Report} (h : (project.run tree).1 = .ok report) :
    ∃ prepared pages, project.prepare tree = .ok (prepared, pages) ∧
      report = { prepared with pages := pages.map (·.1) } := by
  cases hprepare : project.prepare tree with
  | error e =>
    rw [run, execute_of_error hprepare] at h
    cases h
  | ok prepared =>
    obtain ⟨prepared, pages⟩ := prepared
    rw [run_of_ok hprepare] at h
    refine ⟨prepared, pages, rfl, ?_⟩
    cases hwritten : (project.writePages tree pages).1 with
    | error e =>
      rw [hwritten] at h
      cases h
    | ok done =>
      rw [hwritten] at h
      exact (Except.ok.inj h).symm

/-- A run fails in another way than by writing where something cannot be prepared. -/
theorem run_eq_error_iff {e : BuildError ω} (he : ¬e.Writes) :
    (project.run tree).1 = .error e ↔ project.prepare tree = .error e := by
  cases hprepare : project.prepare tree with
  | error e' => simp [run, execute_of_error hprepare]
  | ok prepared =>
    obtain ⟨prepared, pages⟩ := prepared
    rw [run_of_ok hprepare]
    constructor
    · intro h
      cases hwritten : (project.writePages tree pages).1 with
      | error e' =>
        rw [hwritten] at h
        obtain rfl : e' = e := Except.error.inj h
        exact absurd (writePages_error hwritten) he
      | ok done =>
        rw [hwritten] at h
        cases h
    · intro h
      cases h

/-- A run in which everything can be prepared succeeds or fails by writing. -/
theorem run_cases_of_ok {prepared : Report × List (String × String)}
    (h : project.prepare tree = .ok prepared) :
    (∃ report, (project.run tree).1 = .ok report) ∨
      ∃ e, (project.run tree).1 = .error e ∧ e.Writes := by
  cases hrun : (project.run tree).1 with
  | ok report => exact .inl ⟨report, rfl⟩
  | error e =>
    refine .inr ⟨e, rfl, ?_⟩
    by_contra he
    rw [run_eq_error_iff he, h] at hrun
    cases hrun

/-- **Nothing is written unless everything can be made.**

A run without writing leaves the files alone, and so does a run that fails for another reason than
writing.  A check succeeds exactly when the run gets as far as writing, and fails as the run does.
Where both succeed, the reports differ in the list of pages only: the check lists none, the run the
path of each documented class in the order of their names, and then the index.  A collision is
reported exactly when the sources are loaded and two documented classes have the same path; it is
the first in the order of names. -/
theorem build_all_or_nothing (project : Project ω) (tree : FileTree) :
    (project.execute false tree).2 = tree ∧
      (∀ e, (project.run tree).1 = .error e → ¬e.Writes →
        (project.run tree).2 = tree ∧ project.check tree = .error e) ∧
      (∀ report, project.check tree = .ok report ↔
        ∃ pages, project.prepare tree = .ok (report, pages)) ∧
      ((∃ report, project.check tree = .ok report) ↔
        (∃ report, (project.run tree).1 = .ok report) ∨
          ∃ e, (project.run tree).1 = .error e ∧ e.Writes) ∧
      (∀ e, project.check tree = .error e → project.run tree = (.error e, tree)) ∧
      (∀ checked report, project.check tree = .ok checked →
        (project.run tree).1 = .ok report →
        checked.pages = [] ∧ ∃ reg loaded, project.load tree = .ok (reg, loaded) ∧
          report = { checked with
            pages := reg.documentedNames.map outputPath ++ ["index.html"] }) ∧
      (∀ page first second,
        ((project.run tree).1 = .error (.collision page first second) ↔
          ∃ reg loaded, project.load tree = .ok (reg, loaded) ∧
            FirstCollision reg.documentedNames page first second)) ∧
      ((∃ page first second, (project.run tree).1 = .error (.collision page first second)) ↔
        ∃ reg loaded, project.load tree = .ok (reg, loaded) ∧
          ¬(reg.documentedNames.map outputPath).Nodup) := by
  have hcollision (page first second : String) :
      (project.run tree).1 = .error (.collision page first second) ↔
        ∃ reg loaded, project.load tree = .ok (reg, loaded) ∧
          FirstCollision reg.documentedNames page first second :=
    (run_eq_error_iff id).trans prepare_eq_collision_iff
  refine ⟨?_, fun e h he => ?_, fun report => check_eq_ok_iff, ⟨?_, ?_⟩, fun e h => ?_,
    fun checked report hchecked hreport => ?_, hcollision, ?_⟩
  · cases h : project.prepare tree with
    | error e => rw [execute_of_error h]
    | ok prepared => rw [execute_false_of_ok h]
  · have hprepare := (run_eq_error_iff he).1 h
    exact ⟨by rw [run, execute_of_error hprepare], check_eq_error_iff.2 hprepare⟩
  · rintro ⟨report, h⟩
    obtain ⟨pages, hprepare⟩ := check_eq_ok_iff.1 h
    exact run_cases_of_ok hprepare
  · intro h
    cases hcheck : project.check tree with
    | ok report => exact ⟨report, rfl⟩
    | error e =>
      have hprepare := check_eq_error_iff.1 hcheck
      rw [run, execute_of_error hprepare] at h
      rcases h with ⟨report, h⟩ | ⟨e', h, he'⟩
      · cases h
      · cases h
        exact absurd he' (prepare_error hprepare)
  · rw [run, execute_of_error (check_eq_error_iff.1 h)]
  · obtain ⟨prepared, pages, hprepare, rfl⟩ := exists_of_run_eq_ok hreport
    obtain ⟨pages', hprepare'⟩ := check_eq_ok_iff.1 hchecked
    obtain ⟨rfl, rfl⟩ : prepared = checked ∧ pages = pages' := by
      rw [hprepare] at hprepare'
      simpa using hprepare'
    obtain ⟨reg, loaded, hload, rfl, -, hpaths⟩ := paths_of_prepare hprepare
    exact ⟨load_pages hload, reg, loaded, hload, by rw [hpaths]⟩
  · simp only [hcollision]
    constructor
    · rintro ⟨page, first, second, reg, loaded, hload, h⟩
      exact ⟨reg, loaded, hload, (exists_firstCollision_iff _).1 ⟨page, first, second, h⟩⟩
    · rintro ⟨reg, loaded, hload, h⟩
      obtain ⟨page, first, second, h⟩ := (exists_firstCollision_iff _).2 h
      exact ⟨page, first, second, reg, loaded, hload, h⟩

end Project

end PhpHandbook
