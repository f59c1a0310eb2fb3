import PhpHandbook.Proofs.Numbering

/-!
# Two runs in accord

Two runs over the same registry number their chapters differently and remember different things.
They are compared step by step: two queries agree if, started in sound runs, they end in sound runs
and their answers match, that is, they refer to the chapters of the same names and are equal in
everything but the numbers.

The matching of answers depends on the tables of contents of both runs.  These grow, and what has
matched once matches ever after, so agreement is stated for all runs from a pair of tables on.

## Main definitions

* `Match`: data of two runs that differs in numbers only.
* `Run.Sound`: the invariant of a run.  What is remembered is what would be found out anew.
* `Gather.Agree`, `Query.Agree`: queries whose answers match.

## Main statements

* `Gather.Agree.bind`, `Query.Agree.bind`, `Query.Agree.mapM`, `Query.Agree.foldlM`: agreement is
  kept by the ways in which queries are put together.
* `Query.agree_remembered`: a facet that is remembered agrees with one that is worked out.
-/

namespace PhpHandbook.Handbook

open Declaration (Comment)
open DocBlock (Document Shelf)
open Hierarchy (Surroundings surroundings)

variable {reg : Registry} {α β γ : Type} [Linked α] [Linked β] [Linked γ]

/-! ### Data that matches -/

/-- The tables of contents of two runs. -/
abbrev Tables (reg : Registry) : Type :=
  Contents reg × Contents reg

/-- **Matching data** of two runs: the references lead to chapters on both sides, and all but their
numbers is the same. -/
structure Match (w : Tables reg) (a₁ a₂ : α) : Prop where
  left : Valid w.1 a₁
  right : Valid w.2 a₂
  erase_eq : erase a₁ = erase a₂

namespace Match

variable {w w' : Tables reg}

/-- What has matched once matches ever after. -/
theorem mono {a₁ a₂ : α} (h : Match w a₁ a₂) (hle : w ≤ w') : Match w' a₁ a₂ :=
  ⟨h.left.mono hle.1, h.right.mono hle.2, h.erase_eq⟩

/-- Data without references matches itself. -/
theorem refl [Linkless α] (a : α) : Match w a a :=
  ⟨by simp [Valid, Linkless.links_eq_nil], by simp [Valid, Linkless.links_eq_nil], rfl⟩

/-- Data without references matches only itself. -/
theorem eq [Linkless α] {a₁ a₂ : α} (h : Match w a₁ a₂) : a₁ = a₂ := by
  have herase := h.erase_eq
  rwa [Linkless.erase_eq, Linkless.erase_eq] at herase

/-- A function that adds no references and does not look at numbers takes matching data to matching
data. -/
theorem apply {a₁ a₂ : α} (h : Match w a₁ a₂) (f : α → β)
    (hlinks : ∀ a, links (f a) ⊆ links a) (herase : ∀ a, erase (f a) = f (erase a)) :
    Match w (f a₁) (f a₂) :=
  ⟨h.left.of_subset (hlinks a₁), h.right.of_subset (hlinks a₂), by
    rw [herase, herase, h.erase_eq]⟩

theorem of_parts {ρ : Type} [Parts ρ β] {a₁ a₂ : ρ}
    (hparts : Match w (parts a₁) (parts a₂))
    (hrest : ∀ b, withParts b a₁ = withParts b a₂) : Match w a₁ a₂ :=
  ⟨hparts.left, hparts.right, erase_eq_of_parts hparts.erase_eq hrest⟩

theorem prod {a₁ a₂ : α} {b₁ b₂ : β} (ha : Match w a₁ a₂) (hb : Match w b₁ b₂) :
    Match w (a₁, b₁) (a₂, b₂) := by
  refine ⟨?_, ?_, ?_⟩
  · exact List.forall_mem_append.2 ⟨ha.left, hb.left⟩
  · exact List.forall_mem_append.2 ⟨ha.right, hb.right⟩
  · exact Prod.ext ha.erase_eq hb.erase_eq

theorem none : Match w (none : Option α) none :=
  ⟨by simp [Valid, links], by simp [Valid, links], rfl⟩

theorem some {a₁ a₂ : α} (h : Match w a₁ a₂) : Match w (some a₁) (some a₂) :=
  ⟨h.left, h.right, congrArg Option.some h.erase_eq⟩

theorem option_cases {o₁ o₂ : Option α} (h : Match w o₁ o₂) :
    o₁ = Option.none ∧ o₂ = Option.none ∨
      ∃ a₁ a₂, o₁ = Option.some a₁ ∧ o₂ = Option.some a₂ ∧ Match w a₁ a₂ := by
  have herase := h.erase_eq
  cases o₁ with
  | none =>
    cases o₂ with
    | none => exact .inl ⟨rfl, rfl⟩
    | some a₂ => cases herase
  | some a₁ =>
    cases o₂ with
    | none => cases herase
    | some a₂ => exact .inr ⟨a₁, a₂, rfl, rfl, h.left, h.right, Option.some.inj herase⟩

theorem getD {o₁ o₂ : Option α} {a₁ a₂ : α} (ho : Match w o₁ o₂)
    (ha : Match w a₁ a₂) :
    Match w (o₁.getD a₁) (o₂.getD a₂) := by
  rcases ho.option_cases with ⟨rfl, rfl⟩ | ⟨b₁, b₂, rfl, rfl, hb⟩
  · exact ha
  · exact hb

theorem or {o₁ o₂ p₁ p₂ : Option α} (ho : Match w o₁ o₂) (hp : Match w p₁ p₂) :
    Match w (o₁.or p₁) (o₂.or p₂) := by
  rcases ho.option_cases with ⟨rfl, rfl⟩ | ⟨a₁, a₂, rfl, rfl, ha⟩
  · exact hp
  · exact ha.some

theorem nil : Match w ([] : List α) [] :=
  ⟨by simp [Valid, links], by simp [Valid, links], rfl⟩

theorem cons {a₁ a₂ : α} {as₁ as₂ : List α} (ha : Match w a₁ a₂)
    (has : Match w as₁ as₂) :
    Match w (a₁ :: as₁) (a₂ :: as₂) := by
  refine ⟨?_, ?_, ?_⟩
  · exact List.forall_mem_append.2 ⟨ha.left, has.left⟩
  · exact List.forall_mem_append.2 ⟨ha.right, has.right⟩
  · exact congrArg₂ List.cons ha.erase_eq has.erase_eq

theorem ok {ε : Type} {a₁ a₂ : α} (h : Match w a₁ a₂) :
    Match w (Except.ok a₁ : Except ε α) (Except.ok a₂) :=
  ⟨h.left, h.right, congrArg Except.ok h.erase_eq⟩

theorem error {ε : Type} (e : ε) : Match w (Except.error e : Except ε α) (Except.error e) :=
  ⟨by simp [Valid, links], by simp [Valid, links], rfl⟩

theorem except_cases {ε : Type} {x₁ x₂ : Except ε α} (h : Match w x₁ x₂) :
    (∃ a₁ a₂, x₁ = .ok a₁ ∧ x₂ = .ok a₂ ∧ Match w a₁ a₂) ∨
      ∃ e, x₁ = .error e ∧ x₂ = .error e := by
  have herase := h.erase_eq
  cases x₁ with
  | ok a₁ =>
    cases x₂ with
    | ok a₂ => exact .inl ⟨a₁, a₂, rfl, rfl, h.left, h.right, Except.ok.inj herase⟩
    | error e => cases herase
  | error e =>
    cases x₂ with
    | ok a₂ => cases herase
    | error e' =>
      cases herase
      exact .inr ⟨e, rfl, rfl⟩

/-- Matching chapters are about the same declaration. -/
theorem entry_eq {c₁ c₂ : Chapter reg} (h : Match w c₁ c₂) : c₁.entry = c₂.entry := by
  show (erase c₁).entry = (erase c₂).entry
  rw [h.erase_eq]

/-- Chapters about the same declaration match. -/
theorem chapter {c₁ c₂ : Chapter reg} (h₁ : w.1.get? c₁.id = Option.some c₁)
    (h₂ : w.2.get? c₂.id = Option.some c₂) (hentry : c₁.entry = c₂.entry) :
    Match w c₁ c₂ := by
  refine ⟨?_, ?_, ?_⟩
  · exact List.forall_mem_singleton.2 ⟨c₁, h₁, rfl⟩
  · exact List.forall_mem_singleton.2 ⟨c₂, h₂, rfl⟩
  · show ({ c₁ with id := ⟨0⟩ } : Chapter reg) = { c₂ with id := ⟨0⟩ }
    rw [hentry]

end Match

/-! ### Sound runs -/

/-- The answer to a facet of a declaration in a run that has gathered nothing. -/
def firstAnswer (e : reg.Entry) (facet : Facet) : Except ResolveError facet.Answer :=
  ((gathered (chapterOf e) >>= fun c => c.facet facet : Query reg facet.Answer).run.run {}).1

/-- **A sound cell**: it belongs to a chapter, and holds the first answer up to numbers. -/
def Cell.Sound (contents : Contents reg) (cell : Cell) : Prop :=
  ∃ c, contents.get? cell.chapter = some c ∧ Valid contents cell.answer ∧
    erase (firstAnswer c.entry cell.facet) = .ok (erase cell.answer)

/-- **A sound run.** -/
structure Run.Sound (run : Run reg) : Prop where
  contents : run.contents.Sound
  /-- A document on the shelf is that of its comment. -/
  shelf : ∀ p ∈ run.shelf.entries.toList, p.2 = Document.ofComment p.1
  /-- Surroundings are kept under the keys of their declarations. -/
  files : ∀ p ∈ run.files, ∀ e : reg.Entry, e.1.key = p.1 → p.2 = surroundings reg e.1
  cells : ∀ cell ∈ run.cells, cell.Sound run.contents

theorem Run.sound_empty : Run.Sound ({} : Run reg) :=
  ⟨Contents.sound_empty, by simp, by simp, by simp⟩

theorem Cell.Sound.mono {before after : Contents reg} {cell : Cell} (h : cell.Sound before)
    (hle : before ≤ after) : cell.Sound after := by
  obtain ⟨c, hget, hvalid, hanswer⟩ := h
  exact ⟨c, Contents.get?_mono hle hget, hvalid.mono hle, hanswer⟩

/-! ### Queries that agree -/

/-- The tables of contents of two runs at hand. -/
abbrev tablesOf (run₁ run₂ : Run reg) : Tables reg :=
  (run₁.contents, run₂.contents)

/-- **Queries that agree** from two tables on: in sound runs they have matching answers, and leave
sound runs behind. -/
def Gather.Agree (w : Tables reg) (q₁ q₂ : Gather reg α) : Prop :=
  ∀ run₁ run₂ : Run reg, run₁.Sound → run₂.Sound → w ≤ tablesOf run₁ run₂ →
    (q₁.run run₁).2.Sound ∧ (q₂.run run₂).2.Sound ∧
      tablesOf run₁ run₂ ≤ tablesOf (q₁.run run₁).2 (q₂.run run₂).2 ∧
      Match (tablesOf (q₁.run run₁).2 (q₂.run run₂).2) (q₁.run run₁).1
        (q₂.run run₂).1

namespace Gather.Agree

variable {w w' : Tables reg}

theorem mono {q₁ q₂ : Gather reg α} (h : Agree w q₁ q₂) (hle : w ≤ w') :
    Agree w' q₁ q₂ :=
  fun run₁ run₂ h₁ h₂ hw => h run₁ run₂ h₁ h₂ (hle.trans hw)

theorem pure {a₁ a₂ : α} (h : Match w a₁ a₂) :
    Agree w (Pure.pure a₁ : Gather reg α) (Pure.pure a₂) :=
  fun _ _ h₁ h₂ hw => ⟨h₁, h₂, le_refl _, h.mono hw⟩

/-- **One query after another.** -/
theorem bind {q₁ q₂ : Gather reg α} {k₁ k₂ : α → Gather reg β} (h : Agree w q₁ q₂)
    (hk : ∀ w', w ≤ w' → ∀ a₁ a₂, Match w' a₁ a₂ →
      Agree w' (k₁ a₁) (k₂ a₂)) :
    Agree w (q₁ >>= k₁) (q₂ >>= k₂) := by
  intro run₁ run₂ h₁ h₂ hw
  obtain ⟨h₁', h₂', hle, hmatch⟩ := h run₁ run₂ h₁ h₂ hw
  -- the second query starts in the runs that the first one has left behind
  obtain ⟨h₁'', h₂'', hle', hmatch'⟩ :=
    hk _ (hw.trans hle) _ _ hmatch (q₁.run run₁).2 (q₂.run run₂).2 h₁' h₂' (le_refl _)
  exact ⟨h₁'', h₂'', hle.trans hle', hmatch'⟩

/-- One query after another whose answer has no references. -/
theorem bind_eq [Linkless α] {q₁ q₂ : Gather reg α} {k₁ k₂ : α → Gather reg β}
    (h : Agree w q₁ q₂) (hk : ∀ w', w ≤ w' → ∀ a, Agree w' (k₁ a) (k₂ a)) :
    Agree w (q₁ >>= k₁) (q₂ >>= k₂) :=
  h.bind fun w' hle a₁ _ ha => ha.eq ▸ hk w' hle a₁

theorem map {q₁ q₂ : Gather reg α} {f₁ f₂ : α → β} (h : Agree w q₁ q₂)
    (hf : ∀ w', w ≤ w' → ∀ a₁ a₂, Match w' a₁ a₂ →
      Match w' (f₁ a₁) (f₂ a₂)) :
    Agree w (f₁ <$> q₁) (f₂ <$> q₂) :=
  h.bind fun w' hle a₁ a₂ ha => .pure (hf w' hle a₁ a₂ ha)

theorem mapM {ι : Type} {f₁ f₂ : ι → Gather reg α} (xs : List ι)
    (h : ∀ x ∈ xs, Agree w (f₁ x) (f₂ x)) : Agree w (xs.mapM f₁) (xs.mapM f₂) := by
  induction xs generalizing w with
  | nil =>
    rw [List.mapM_nil, List.mapM_nil]
    exact .pure .nil
  | cons x xs ih =>
    rw [List.mapM_cons, List.mapM_cons]
    refine (h x List.mem_cons_self).bind fun w' hle a₁ a₂ ha => ?_
    refine (ih fun y hy => (h y (List.mem_cons_of_mem x hy)).mono hle).bind
      fun w'' hle' as₁ as₂ has => ?_
    exact .pure ((ha.mono hle').cons has)

end Gather.Agree

/-- **Queries that may fail and agree**: they fail together. -/
def Query.Agree (w : Tables reg) (q₁ q₂ : Query reg α) : Prop :=
  Gather.Agree w q₁.run q₂.run

namespace Query.Agree

variable {w w' : Tables reg}

theorem mono {q₁ q₂ : Query reg α} (h : Agree w q₁ q₂) (hle : w ≤ w') :
    Agree w' q₁ q₂ :=
  Gather.Agree.mono h hle

theorem pure {a₁ a₂ : α} (h : Match w a₁ a₂) :
    Agree w (Pure.pure a₁ : Query reg α) (Pure.pure a₂) :=
  Gather.Agree.pure h.ok

theorem throw (e : ResolveError) : Agree w (throw e : Query reg α) (MonadExcept.throw e) :=
  Gather.Agree.pure (.error e)

theorem gathered {g₁ g₂ : Gather reg α} (h : Gather.Agree w g₁ g₂) :
    Agree w (Handbook.gathered g₁) (Handbook.gathered g₂) :=
  Gather.Agree.map h fun _ _ _ _ ha => ha.ok

/-- **One query after another.** -/
theorem bind {q₁ q₂ : Query reg α} {k₁ k₂ : α → Query reg β} (h : Agree w q₁ q₂)
    (hk : ∀ w', w ≤ w' → ∀ a₁ a₂, Match w' a₁ a₂ →
      Agree w' (k₁ a₁) (k₂ a₂)) :
    Agree w (q₁ >>= k₁) (q₂ >>= k₂) := by
  rw [Agree, ExceptT.run_bind, ExceptT.run_bind]
  refine Gather.Agree.bind h fun w' hle x₁ x₂ hx => ?_
  rcases hx.except_cases with ⟨a₁, a₂, rfl, rfl, ha⟩ | ⟨e, rfl, rfl⟩
  · exact hk w' hle a₁ a₂ ha
  · exact .pure (.error e)

/-- One query after another whose answer has no references. -/
theorem bind_eq [Linkless α] {q₁ q₂ : Query reg α} {k₁ k₂ : α → Query reg β}
    (h : Agree w q₁ q₂) (hk : ∀ w', w ≤ w' → ∀ a, Agree w' (k₁ a) (k₂ a)) :
    Agree w (q₁ >>= k₁) (q₂ >>= k₂) :=
  h.bind fun w' hle a₁ _ ha => ha.eq ▸ hk w' hle a₁

theorem map {q₁ q₂ : Query reg α} {f₁ f₂ : α → β} (h : Agree w q₁ q₂)
    (hf : ∀ w', w ≤ w' → ∀ a₁ a₂, Match w' a₁ a₂ →
      Match w' (f₁ a₁) (f₂ a₂)) :
    Agree w (f₁ <$> q₁) (f₂ <$> q₂) := by
  rw [map_eq_pure_bind, map_eq_pure_bind]
  exact h.bind fun w' hle a₁ a₂ ha => .pure (hf w' hle a₁ a₂ ha)

theorem mapM {ι : Type} {f₁ f₂ : ι → Query reg α} (xs : List ι)
    (h : ∀ x ∈ xs, Agree w (f₁ x) (f₂ x)) : Agree w (xs.mapM f₁) (xs.mapM f₂) := by
  induction xs generalizing w with
  | nil =>
    rw [List.mapM_nil, List.mapM_nil]
    exact .pure .nil
  | cons x xs ih =>
    rw [List.mapM_cons, List.mapM_cons]
    refine (h x List.mem_cons_self).bind fun w' hle a₁ a₂ ha => ?_
    refine (ih fun y hy => (h y (List.mem_cons_of_mem x hy)).mono hle).bind
      fun w'' hle' as₁ as₂ has => ?_
    exact .pure ((ha.mono hle').cons has)

/-- A query that looks at the table of contents. -/
theorem ofContents (f₁ f₂ : Contents reg → α)
    (h : ∀ w', w ≤ w' → w'.2.Sound → Match w' (f₁ w'.1) (f₂ w'.2)) :
    Agree w (get >>= fun run : Run reg => Pure.pure (f₁ run.contents) : Query reg α)
      (get >>= fun run : Run reg => Pure.pure (f₂ run.contents)) :=
  fun run₁ run₂ h₁ h₂ hw =>
    ⟨h₁, h₂, le_refl _, (h (tablesOf run₁ run₂) hw h₂.contents).ok⟩

theorem foldlM {ι : Type} {f₁ f₂ : α → ι → Query reg α} (xs : List ι)
    (h : ∀ w', w ≤ w' → ∀ a₁ a₂, Match w' a₁ a₂ →
      ∀ x, Agree w' (f₁ a₁ x) (f₂ a₂ x))
    {a₁ a₂ : α} (ha : Match w a₁ a₂) :
    Agree w (xs.foldlM f₁ a₁) (xs.foldlM f₂ a₂) := by
  induction xs generalizing w a₁ a₂ with
  | nil =>
    rw [List.foldlM_nil, List.foldlM_nil]
    exact .pure ha
  | cons x xs ih =>
    rw [List.foldlM_cons, List.foldlM_cons]
    refine (h w (le_refl w) a₁ a₂ ha x).bind fun w' hle b₁ b₂ hb => ?_
    exact ih (fun w'' hle' => h w'' (hle.trans hle')) hb

end Query.Agree

/-! ### Queries with a known answer -/

/-- **Queries that open no chapters** and have a known answer in every sound run with the given
table of contents. -/
def Gather.Gives {δ : Type} (contents : Contents reg) (q : Gather reg δ) (a : δ) : Prop :=
  ∀ run : Run reg, run.Sound → run.contents = contents →
    (q.run run).1 = a ∧ (q.run run).2.Sound ∧ (q.run run).2.contents = contents

namespace Gather.Gives

variable {δ ε : Type} {contents : Contents reg}

theorem pure (a : δ) : Gives contents (Pure.pure a) a :=
  fun _ h hcontents => ⟨rfl, h, hcontents⟩

theorem bind {q : Gather reg δ} {a : δ} {k : δ → Gather reg ε} {b : ε}
    (h : Gives contents q a) (hk : Gives contents (k a) b) : Gives contents (q >>= k) b := by
  intro run hrun hcontents
  obtain ⟨rfl, hrun', hcontents'⟩ := h run hrun hcontents
  exact hk _ hrun' hcontents'

theorem ofContents (f : Contents reg → δ) :
    Gives contents (get >>= fun run : Run reg => Pure.pure (f run.contents)) (f contents) := by
  rintro run h rfl
  exact ⟨rfl, h, rfl⟩

end Gather.Gives

/-- Queries that give the same answer agree. -/
theorem Gather.Agree.of_gives [Linkless α] {w : Tables reg} {q₁ q₂ : Gather reg α}
    (h : ∀ w', w ≤ w' → w'.1.Sound → w'.2.Sound →
      ∃ a, Gather.Gives w'.1 q₁ a ∧ Gather.Gives w'.2 q₂ a) : Gather.Agree w q₁ q₂ := by
  intro run₁ run₂ h₁ h₂ hw
  obtain ⟨a, hgives₁, hgives₂⟩ := h (tablesOf run₁ run₂) hw h₁.contents h₂.contents
  obtain ⟨hanswer₁, hsound₁, hcontents₁⟩ := hgives₁ run₁ h₁ rfl
  obtain ⟨hanswer₂, hsound₂, hcontents₂⟩ := hgives₂ run₂ h₂ rfl
  refine ⟨hsound₁, hsound₂, ?_, ?_⟩
  · rw [tablesOf, tablesOf, hcontents₁, hcontents₂]
  · rw [hanswer₁, hanswer₂]
    exact .refl a

/-! ### Comments, surroundings and chapters -/

section Steps

variable {w : Tables reg}

/-- The document of a comment, read without a shelf. -/
def documentOf (comment : Option String) : Document :=
  if Shelf.isBare (Text.trim (comment.getD "")) then {}
  else Document.ofComment (Text.trim (comment.getD ""))

/-- A sound shelf gives the document that a comment has anyway, and stays sound. -/
theorem read_of_sound {shelf : Shelf}
    (h : ∀ p ∈ shelf.entries.toList, p.2 = Document.ofComment p.1) (comment : Option String) :
    (shelf.read comment).1.document = documentOf comment ∧
      ∀ p ∈ (shelf.read comment).2.entries.toList, p.2 = Document.ofComment p.1 := by
  unfold Shelf.read documentOf
  generalize Text.trim (comment.getD "") = text
  by_cases hbare : Shelf.isBare text = true
  · simp only [hbare, if_true, true_and]
    exact h
  · simp only [hbare, if_false, Bool.false_eq_true]
    cases hfind : shelf.entries.findIdx? (·.1 == text) with
    | none =>
      simp only [Array.toList_push, true_and]
      exact List.forall_mem_append.2 ⟨h, List.forall_mem_singleton.2 rfl⟩
    | some i =>
      refine ⟨?_, h⟩
      obtain ⟨hlt, hi, -⟩ := Array.findIdx?_eq_some_iff_getElem.1 hfind
      have hmem : shelf.entries[i] ∈ shelf.entries.toList := by simp
      rw [beq_iff_eq] at hi
      simp only [Array.getD, hlt, dif_pos]
      rw [← hi]
      exact h _ hmem

theorem Gather.gives_readText {contents : Contents reg} (text : Option String) :
    Gather.Gives contents (readText text) (documentOf text) := by
  rintro run h rfl
  obtain ⟨hdoc, hshelf⟩ := read_of_sound h.shelf text
  unfold readText
  rw [StateT.run_modifyGet]
  generalize run.shelf.read text = out at hdoc hshelf ⊢
  exact ⟨hdoc, ⟨h.contents, hshelf, h.files, h.cells⟩, rfl⟩

theorem run_surroundingsOf (e : reg.Entry) (run : Run reg) :
    (surroundingsOf e).run run
      = match run.files.find? (·.1 == e.1.key) with
        | some p => (p.2, run)
        | none => (surroundings reg e.1,
            { run with files := run.files ++ [(e.1.key, surroundings reg e.1)] }) := by
  unfold surroundingsOf
  rw [StateT.run_modifyGet]
  cases run.files.find? (·.1 == e.1.key) <;> rfl

/-- In a sound run the surroundings of a declaration are those it has. -/
theorem Gather.gives_surroundingsOf {contents : Contents reg} (e : reg.Entry) :
    Gather.Gives contents (surroundingsOf e) (surroundings reg e.1) := by
  rintro run h rfl
  rw [run_surroundingsOf]
  cases hfind : run.files.find? (·.1 == e.1.key) with
  | some p =>
    have hkey : p.1 = e.1.key := by simpa using List.find?_some hfind
    exact ⟨h.files p (List.mem_of_find?_eq_some hfind) e hkey.symm, h, rfl⟩
  | none =>
    refine ⟨rfl, ⟨h.contents, h.shelf, ?_, h.cells⟩, rfl⟩
    refine List.forall_mem_append.2 ⟨h.files, List.forall_mem_singleton.2 fun e' he' => ?_⟩
    rw [Registry.entry_eq_of_key he']

theorem Gather.agree_readText (text : Option String) :
    Gather.Agree w (readText text : Gather reg Document) (readText text) :=
  .of_gives fun _ _ _ _ => ⟨_, gives_readText text, gives_readText text⟩

theorem Gather.agree_readComment (comment : Option Comment) :
    Gather.Agree w (readComment comment : Gather reg Document) (readComment comment) :=
  agree_readText _

theorem Gather.agree_surroundingsOf (e : reg.Entry) :
    Gather.Agree w (surroundingsOf e) (surroundingsOf e) :=
  .of_gives fun _ _ _ _ => ⟨_, gives_surroundingsOf e, gives_surroundingsOf e⟩

/-- A run with a later table of contents. -/
theorem Run.Sound.withContents {run : Run reg} (h : run.Sound) {contents : Contents reg}
    (hsound : contents.Sound) (hle : run.contents ≤ contents) :
    Run.Sound { run with contents } :=
  ⟨hsound, h.shelf, h.files, fun cell hcell => (h.cells cell hcell).mono hle⟩

/-- **A chapter and what is asked about it.** -/
theorem Gather.Agree.bind_chapterOf {e : reg.Entry} {k₁ k₂ : Chapter reg → Gather reg α}
    (hk : ∀ w', w ≤ w' → ∀ c₁ c₂ : Chapter reg, c₁.entry = e →
      Match w' c₁ c₂ →
      Gather.Agree w' (k₁ c₁) (k₂ c₂)) :
    Gather.Agree w (chapterOf e >>= k₁) (chapterOf e >>= k₂) := by
  intro run₁ run₂ h₁ h₂ hw
  obtain ⟨hsound₁, hle₁, hget₁, hentry₁⟩ := h₁.contents.enter e
  obtain ⟨hsound₂, hle₂, hget₂, hentry₂⟩ := h₂.contents.enter e
  -- the chapter may be new to one run and old to the other
  have hle : tablesOf run₁ run₂ ≤
      ((run₁.contents.enter e.1.name e).2, (run₂.contents.enter e.1.name e).2) :=
    ⟨hle₁, hle₂⟩
  obtain ⟨hsound₁', hsound₂', hle', hmatch⟩ := hk _ (hw.trans hle) _ _ hentry₁
    (.chapter hget₁ hget₂ (hentry₁.trans hentry₂.symm)) _ _
    (h₁.withContents hsound₁ hle₁) (h₂.withContents hsound₂ hle₂) (le_refl _)
  exact ⟨hsound₁', hsound₂', hle.trans hle', hmatch⟩

theorem Gather.agree_chapterOf (e : reg.Entry) :
    Gather.Agree w (chapterOf e) (chapterOf e) := by
  rw [← bind_pure (chapterOf e)]
  exact .bind_chapterOf fun _ _ _ _ _ hc => .pure hc

/-! ### Facets that are remembered

A facet is answered from a cell, or worked out and put into one.  Either way the answer is the first
answer up to numbers: that is what a sound cell holds, and working it out agrees with working it out
in a run that has gathered nothing. -/

omit [Linked α] [Linked β] [Linked γ] in
theorem Cell.eq_of_answer? {cell : Cell} {id : ChapterId} {facet : Facet} {answer : facet.Answer}
    (h : cell.answer? id facet = some answer) : cell = ⟨id, facet, answer⟩ := by
  obtain ⟨id', facet', answer'⟩ := cell
  unfold Cell.answer? at h
  split at h
  · next hsame =>
    obtain ⟨rfl, rfl⟩ := hsame
    cases h
    rfl
  · cases h

theorem run_remembered (c : Chapter reg) (facet : Facet) (work : Query reg facet.Answer)
    (run : Run reg) :
    (remembered c facet work).run.run run
      = match run.cells.findSome? (·.answer? c.id facet) with
        | some answer => (.ok answer, run)
        | none =>
          match work.run.run run with
          | (.ok answer, run) =>
            (.ok answer, { run with cells := run.cells ++ [⟨c.id, facet, answer⟩] })
          | (.error e, run) => (.error e, run) := by
  have hknown : (remembered c facet work).run.run run
      = ((match run.cells.findSome? (·.answer? c.id facet) with
        | some answer => pure answer
        | none => work >>= fun answer =>
            gathered (record c facet answer) >>= fun _ => pure answer) :
          Query reg facet.Answer).run.run run := by
    rfl
  rw [hknown]
  cases run.cells.findSome? (·.answer? c.id facet) with
  | some answer => rfl
  | none =>
    simp only [ExceptT.run_bind, StateT.run_bind]
    rcases work.run.run run with ⟨e | answer, run'⟩ <;> rfl

omit [Linked α] [Linked β] [Linked γ] in
theorem run_gathered (g : Gather reg α) (run : Run reg) :
    (gathered g).run.run run = (.ok (g.run run).1, (g.run run).2) :=
  rfl

theorem run_noted (c : Chapter reg) (facet : Facet) (work : Gather reg facet.Answer)
    (run : Run reg) :
    (noted c facet work).run run
      = match run.cells.findSome? (·.answer? c.id facet) with
        | some answer => (answer, run)
        | none =>
          ((work.run run).1, { (work.run run).2 with
            cells := (work.run run).2.cells ++ [⟨c.id, facet, (work.run run).1⟩] }) := by
  have hknown : (noted c facet work).run run
      = ((match run.cells.findSome? (·.answer? c.id facet) with
        | some answer => pure answer
        | none => work >>= fun answer => record c facet answer >>= fun _ => pure answer) :
          Gather reg facet.Answer).run run := by
    rfl
  rw [hknown]
  cases run.cells.findSome? (·.answer? c.id facet) <;> rfl

/-- A facet that cannot fail is remembered like any other. -/
theorem gathered_noted (c : Chapter reg) (facet : Facet) (work : Gather reg facet.Answer) :
    gathered (noted c facet work) = remembered c facet (gathered work) := by
  refine ExceptT.ext (StateT.ext fun run => ?_)
  rw [run_gathered, run_noted, run_remembered]
  cases run.cells.findSome? (·.answer? c.id facet) <;> rfl

/-- What a sound run knows about a facet is its first answer. -/
theorem Run.Sound.of_known {run : Run reg} (h : run.Sound) {c : Chapter reg}
    (hc : run.contents.get? c.id = some c) {facet : Facet} {answer : facet.Answer}
    (hknown : run.cells.findSome? (·.answer? c.id facet) = some answer) :
    Valid run.contents answer ∧ erase (firstAnswer c.entry facet) = .ok (erase answer) := by
  obtain ⟨cell, hmem, hanswer⟩ := List.exists_of_findSome?_eq_some hknown
  obtain rfl := Cell.eq_of_answer? hanswer
  obtain ⟨c', hget, hvalid, hfirst⟩ := h.cells _ hmem
  obtain rfl : c = c' := Option.some.inj (hc.symm.trans hget)
  exact ⟨hvalid, hfirst⟩

/-- A sound run stays sound with one more sound cell. -/
theorem Run.Sound.withCell {run : Run reg} (h : run.Sound) {cell : Cell}
    (hcell : cell.Sound run.contents) : Run.Sound { run with cells := run.cells ++ [cell] } :=
  ⟨h.contents, h.shelf, h.files,
    List.forall_mem_append.2 ⟨h.cells, List.forall_mem_singleton.2 hcell⟩⟩

/-- The first answer to a facet is the one that is worked out. -/
theorem firstAnswer_eq {facet : Facet} {work : Chapter reg → Query reg facet.Answer}
    (hfacet : ∀ c, c.facet facet = remembered c facet (work c)) (e : reg.Entry) :
    firstAnswer e facet
      = ((work ((chapterOf e).run {}).1).run.run ((chapterOf e).run {}).2).1 := by
  have hopen : firstAnswer e facet
      = ((((chapterOf e).run {}).1.facet facet).run.run ((chapterOf e).run {}).2).1 := rfl
  have hcells : ((chapterOf e).run ({} : Run reg)).2.cells.findSome?
      (·.answer? ((chapterOf e).run {}).1.id facet) = none := rfl
  rw [hopen, hfacet, run_remembered, hcells]
  rcases (work ((chapterOf e).run {}).1).run.run ((chapterOf e).run {}).2
    with ⟨e | answer, run⟩ <;> rfl

/-- **A facet is always answered with its first answer**, up to numbers. -/
theorem remembered_of_sound {facet : Facet} {work : Chapter reg → Query reg facet.Answer}
    (hfacet : ∀ c, c.facet facet = remembered c facet (work c))
    (hwork : ∀ (w : Tables reg) (c₁ c₂ : Chapter reg), Match w c₁ c₂ →
      Query.Agree w (work c₁) (work c₂))
    {run : Run reg} (h : run.Sound) {c : Chapter reg} (hc : run.contents.get? c.id = some c) :
    ((remembered c facet (work c)).run.run run).2.Sound ∧
      run.contents ≤ ((remembered c facet (work c)).run.run run).2.contents ∧
      Valid ((remembered c facet (work c)).run.run run).2.contents
        ((remembered c facet (work c)).run.run run).1 ∧
      erase ((remembered c facet (work c)).run.run run).1
        = erase (firstAnswer c.entry facet) := by
  rw [run_remembered]
  cases hknown : run.cells.findSome? (·.answer? c.id facet) with
  | some answer =>
    obtain ⟨hvalid, hfirst⟩ := h.of_known hc hknown
    exact ⟨h, le_refl _, hvalid, hfirst.symm⟩
  | none =>
    -- the work at hand is compared with the work in a run that has gathered nothing
    obtain ⟨hsound₀, -, hget₀, hentry₀⟩ := Contents.sound_empty.enter c.entry
    obtain ⟨hsound, -, hle, hmatch⟩ := hwork
      (run.contents, ((chapterOf c.entry).run ({} : Run reg)).2.contents) c
      ((chapterOf c.entry).run ({} : Run reg)).1 (.chapter hc hget₀ hentry₀.symm)
      run ((chapterOf c.entry).run ({} : Run reg)).2 h
      (Run.sound_empty.withContents hsound₀ (List.nil_prefix)) (le_refl _)
    have hfirst := hmatch.erase_eq
    rw [← firstAnswer_eq hfacet] at hfirst
    -- an answer becomes a cell of its own, an error leaves none
    have hvalid := hmatch.left
    have hgrow := hle.1
    clear hmatch hle
    generalize hout : (work c).run.run run = out at hsound hfirst hvalid hgrow ⊢
    obtain ⟨e | answer, run'⟩ := out
    · exact ⟨hsound, hgrow, hvalid, hfirst⟩
    · have hcell : Cell.Sound run'.contents ⟨c.id, facet, answer⟩ :=
        ⟨c, Contents.get?_mono hgrow hc, hvalid, hfirst.symm⟩
      exact ⟨hsound.withCell hcell, hgrow, hvalid, hfirst⟩

/-- A facet with a known first answer always has that answer. -/
theorem Gather.gives_noted {facet : Facet} [Linkless facet.Answer] {contents : Contents reg}
    {c : Chapter reg} {work : Gather reg facet.Answer} {a : facet.Answer}
    (hc : contents.get? c.id = some c) (hwork : Gather.Gives contents work a)
    (hfirst : firstAnswer c.entry facet = .ok a) :
    Gather.Gives contents (noted c facet work) a := by
  rintro run h rfl
  rw [run_noted]
  cases hknown : run.cells.findSome? (·.answer? c.id facet) with
  | some answer =>
    obtain ⟨-, hsame⟩ := h.of_known hc hknown
    rw [hfirst] at hsame
    have herase : erase a = erase answer := Except.ok.inj hsame
    rw [Linkless.erase_eq, Linkless.erase_eq] at herase
    exact ⟨herase.symm, h, rfl⟩
  | none =>
    obtain ⟨rfl, hsound, hcontents⟩ := hwork run h rfl
    generalize work.run run = out at hfirst hsound hcontents ⊢
    have hcell : Cell.Sound out.2.contents ⟨c.id, facet, out.1⟩ := by
      refine ⟨c, by rw [hcontents, hc], by simp [Valid, Linkless.links_eq_nil], ?_⟩
      rw [hfirst]
      rfl
    exact ⟨rfl, hsound.withCell hcell, hcontents⟩

/-- **A facet that is remembered agrees with one that is worked out.** -/
theorem Query.agree_remembered (facet : Facet) (work : Chapter reg → Query reg facet.Answer)
    (hfacet : ∀ c, c.facet facet = remembered c facet (work c))
    (hwork : ∀ (w : Tables reg) (c₁ c₂ : Chapter reg), Match w c₁ c₂ →
      Query.Agree w (work c₁) (work c₂))
    {c₁ c₂ : Chapter reg} (hc : Match w c₁ c₂) :
    Query.Agree w (remembered c₁ facet (work c₁)) (remembered c₂ facet (work c₂)) := by
  intro run₁ run₂ h₁ h₂ hw
  have hget₁ : run₁.contents.get? c₁.id = some c₁ := (hc.mono hw).left.get? h₁.contents
  have hget₂ : run₂.contents.get? c₂.id = some c₂ := (hc.mono hw).right.get? h₂.contents
  obtain ⟨hsound₁, hle₁, hvalid₁, hfirst₁⟩ :=
    remembered_of_sound hfacet hwork h₁ hget₁
  obtain ⟨hsound₂, hle₂, hvalid₂, hfirst₂⟩ :=
    remembered_of_sound hfacet hwork h₂ hget₂
  refine ⟨hsound₁, hsound₂, ⟨hle₁, hle₂⟩, hvalid₁, hvalid₂, ?_⟩
  calc erase ((remembered c₁ facet (work c₁)).run.run run₁).1
      = erase (firstAnswer c₁.entry facet) := hfirst₁
    _ = erase (firstAnswer c₂.entry facet) := by rw [hc.entry_eq]
    _ = erase ((remembered c₂ facet (work c₂)).run.run run₂).1 := hfirst₂.symm

end Steps

end PhpHandbook.Handbook
