import PhpHandbook.Proofs.PageAccord

/-!
# What a run answers

A run that is asked one thing after the other.  Every inquiry agrees in any two sound runs, so every
run that is served from the beginning is sound, and the answer to an inquiry is the same, up to the
numbers of chapters, whatever was asked before it.

## Main statements

* `Gather.agree_perform`: every inquiry agrees.
* `serve_spec`: what holds after any sequence of inquiries, by induction over the sequence.
* `serve_identifies_chapters`: chapters are numbered in order, a name keeps its number, and every
  reference in an answer leads to the chapter of the name beside it.
* `exists_renumbering_of_answers`: the answers of two runs to the same inquiry differ by one
  renumbering of chapters, and pages do not differ at all.
-/

namespace PhpHandbook.Handbook

open Registry (lower)

variable {reg : Registry} {w : Tables reg}

/-! ### Single inquiries -/

/-- **Every inquiry agrees.** -/
theorem Gather.agree_perform (rules : Links) (toHtml : String → String) (inquiry : Inquiry reg) :
    Gather.Agree w (inquiry.perform rules toHtml) (inquiry.perform rules toHtml) := by
  cases inquiry with
  | chapter name => exact agree_chapter? name
  | chapterOf e => exact agree_chapterOf e
  | documented => exact .mapM _ fun e _ => agree_chapterOf e
  | facet e asked =>
    exact (agree_chapterOf e).bind fun _ _ _ _ hc => Query.agree_facet hc asked
  | method e name =>
    exact (agree_chapterOf e).bind fun _ _ _ _ hc => Query.agree_method? hc name
  | type e templates doc written =>
    exact (agree_resolverWith e templates).bind_eq fun w' _ r =>
      Query.agree_resolve r doc w' written
  | hint e templates written =>
    exact (agree_resolverWith e templates).bind_eq fun _ _ r => agree_resolveHint? r written
  | classPage title listed e =>
    refine (Gather.Agree.mapM listed fun e _ => agree_chapterOf e).bind
      fun w₁ hle₁ cs₁ cs₂ hcs => ?_
    refine (agree_chapterOf e).bind fun w₂ hle₂ c₁ c₂ hc => ?_
    exact Query.agree_renderClass rules toHtml title (hcs.mono hle₂) hc
  | indexPage title listed =>
    refine (Gather.Agree.mapM listed fun e _ => agree_chapterOf e).bind
      fun w₁ hle₁ cs₁ cs₂ hcs => ?_
    exact agree_renderIndex rules toHtml title hcs

/-- The answer to an inquiry in a sound run is valid. -/
theorem valid_perform (rules : Links) (toHtml : String → String) (inquiry : Inquiry reg)
    {run : Run reg} (h : run.Sound) :
    ((inquiry.perform rules toHtml).run run).2.Sound ∧
      run.contents ≤ ((inquiry.perform rules toHtml).run run).2.contents ∧
      Valid ((inquiry.perform rules toHtml).run run).2.contents
        ((inquiry.perform rules toHtml).run run).1 := by
  obtain ⟨hsound, -, hle, hmatch⟩ :=
    Gather.agree_perform rules toHtml inquiry run run h h (le_refl (tablesOf run run))
  exact ⟨hsound, hle.1, hmatch.left⟩

/-- The answers to an inquiry in two sound runs are the same up to numbers. -/
theorem erase_perform_eq (rules : Links) (toHtml : String → String) (inquiry : Inquiry reg)
    {run₁ run₂ : Run reg} (h₁ : run₁.Sound) (h₂ : run₂.Sound) :
    erase ((inquiry.perform rules toHtml).run run₁).1
      = erase ((inquiry.perform rules toHtml).run run₂).1 := by
  obtain ⟨-, -, -, hmatch⟩ :=
    Gather.agree_perform rules toHtml inquiry run₁ run₂ h₁ h₂
      (le_refl (tablesOf run₁ run₂))
  exact hmatch.erase_eq

/-! ### Sequences of inquiries -/

/-- An exchange that took place before a table of contents was reached. -/
def Exchange.Before (rules : Links) (toHtml : String → String) (x : Exchange reg)
    (contents : Contents reg) : Prop :=
  ∃ run : Run reg, run.Sound ∧ x.answer = ((x.inquiry.perform rules toHtml).run run).1 ∧
    ((x.inquiry.perform rules toHtml).run run).2.contents ≤ contents

/-- **After any sequence of inquiries** the run is sound, its table of contents has grown, and every
answer was given in a sound run on the way. -/
theorem serve_spec (rules : Links) (toHtml : String → String) (asked : List (Inquiry reg))
    {run : Run reg} (h : run.Sound) :
    ((serve rules toHtml asked).run run).2.Sound ∧
      run.contents ≤ ((serve rules toHtml asked).run run).2.contents ∧
      ∀ x ∈ ((serve rules toHtml asked).run run).1,
        x.Before rules toHtml ((serve rules toHtml asked).run run).2.contents := by
  induction asked generalizing run with
  | nil => exact ⟨h, le_refl _, fun _ hx => nomatch hx⟩
  | cons inquiry asked ih =>
    obtain ⟨hsound, hle, -⟩ := valid_perform rules toHtml inquiry h
    obtain ⟨hsound', hle', hlog⟩ := ih hsound
    refine ⟨hsound', hle.trans hle', ?_⟩
    exact List.forall_mem_cons.2 ⟨⟨run, h, rfl, hle'⟩, hlog⟩

/-- Every inquiry is answered, in the order of the inquiries. -/
theorem map_inquiry_serve (rules : Links) (toHtml : String → String) (asked : List (Inquiry reg))
    (run : Run reg) :
    ((serve rules toHtml asked).run run).1.map (·.inquiry) = asked := by
  induction asked generalizing run with
  | nil => rfl
  | cons inquiry asked ih => exact congrArg (inquiry :: ·) (ih _)

/-- Inquiries after others go on in the run that those have left behind. -/
theorem run_serve_append (rules : Links) (toHtml : String → String)
    (asked more : List (Inquiry reg)) (run : Run reg) :
    ((serve rules toHtml (asked ++ more)).run run).2
      = ((serve rules toHtml more).run ((serve rules toHtml asked).run run).2).2 := by
  induction asked generalizing run with
  | nil => rfl
  | cons inquiry asked ih => exact ih _

/-- The references in an earlier answer lead to their chapters. -/
theorem Exchange.Before.valid {rules : Links} {toHtml : String → String} {x : Exchange reg}
    {contents : Contents reg} (h : x.Before rules toHtml contents) : Valid contents x.answer := by
  obtain ⟨run, hrun, hanswer, hle⟩ := h
  rw [hanswer]
  exact (valid_perform rules toHtml x.inquiry hrun).2.2.mono hle

/-! ### The identity of chapters -/

/-- Asking for the chapter of a name gives the chapter of the declaration of that name. -/
theorem find?_of_chapter? {name : String} {run : Run reg} (h : run.Sound) {c : Chapter reg}
    (hc : ((chapter? name).run run).1 = some c) : reg.find? name = some c.entry := by
  unfold chapter? at hc
  cases hfind : reg.find? name with
  | none =>
    rw [hfind] at hc
    cases hc
  | some e =>
    rw [hfind] at hc
    have hopened : (run.contents.enter e.1.name e).1 = c := Option.some.inj hc
    rw [← hopened, (h.contents.enter e).2.2.2]

/-- **Chapters keep their identity through a whole run.**  After any sequence of inquiries, each of
which has been answered, the chapters are numbered by their places and have different names; a name
keeps its number in all later states, and it is the number of the chapter that asking for the name
has given; and every reference in an answer given so far leads to the chapter of the registered
class that is named beside it. -/
theorem serve_identifies_chapters (rules : Links) (toHtml : String → String)
    (asked more : List (Inquiry reg)) :
    let log := ((serve rules toHtml asked).run {}).1
    let now := ((serve rules toHtml asked).run {}).2.contents
    let later := ((serve rules toHtml (asked ++ more)).run {}).2.contents
    log.map (·.inquiry) = asked ∧
      now.chapters.map (·.id) = (List.range now.size).map ChapterId.mk ∧
      (now.chapters.map fun c => lower c.name).Nodup ∧
      (∀ name id, now.id? name = some id → later.id? name = some id) ∧
      (∀ name c, ⟨.chapter name, some c⟩ ∈ log → later.id? name = some c.id) ∧
      ∀ x ∈ log, ∀ l ∈ links x.answer, ∃ c, later.get? l.1 = some c ∧ c.id = l.1 ∧
        c.name = l.2 ∧ reg.find? l.2 = some c.entry := by
  intro log now later
  have hempty : Run.Sound ({} : Run reg) := Run.sound_empty
  obtain ⟨hsound, -, hlog⟩ := serve_spec rules toHtml asked hempty
  obtain ⟨hsound', hle, -⟩ := serve_spec rules toHtml more hsound
  rw [← run_serve_append] at hsound' hle
  have hvalid : ∀ x ∈ log, Valid later x.answer := fun x hx => (hlog x hx).valid.mono hle
  refine ⟨map_inquiry_serve rules toHtml asked {}, hsound.contents.numbered,
    hsound.contents.distinct, ?_, ?_, ?_⟩
  · intro name id hid
    exact hsound.contents.id?_mono hsound'.contents hle hid
  · intro name c hx
    obtain ⟨run, hrun, hanswer, -⟩ := hlog _ hx
    have hfind : reg.find? name = some c.entry := find?_of_chapter? hrun hanswer.symm
    have hc : Valid later c := hvalid _ hx
    exact hsound'.contents.id?_of_find? hfind (hc.get? hsound'.contents)
  · intro x hx l hl
    obtain ⟨c, hget, hname⟩ := hvalid x hx l hl
    refine ⟨c, hget, hsound'.contents.id_of_get? hget, hname, ?_⟩
    rw [← hname]
    exact Registry.find?_name c.entry

/-! ### Answers do not depend on what was asked before -/

/-- The number that a chapter of one table has in another.  A chapter that is missing there gets a
number beyond the end of that table. -/
def Contents.renumbering (here there : Contents reg) (id : ChapterId) : ChapterId :=
  (((here.get? id).bind fun c => there.id? c.name)).getD ⟨there.size + id.index⟩

/-- **A renumbering** never gives two chapters the same number. -/
theorem Contents.renumbering_injective {here there : Contents reg} (hhere : here.Sound)
    (hthere : there.Sound) : Function.Injective (here.renumbering there) := by
  intro i j hij
  unfold renumbering at hij
  cases hi : (here.get? i).bind fun c => there.id? c.name with
  | none =>
    cases hj : (here.get? j).bind fun c => there.id? c.name with
    | none =>
      have hindex : there.size + i.index = there.size + j.index := by
        simpa [hi, hj] using hij
      cases i
      cases j
      simp_all
    | some j' =>
      -- the one number lies beyond the table, the other one in it
      obtain ⟨d, -, hd⟩ := Option.bind_eq_some_iff.1 hj
      obtain ⟨d', hd', -⟩ := hthere.get?_of_id? hd
      have hlt := index_lt_of_get? hd'
      rw [hi, hj, Option.getD_none, Option.getD_some] at hij
      rw [← hij] at hlt
      exact absurd hlt (by simp)
  | some i' =>
    obtain ⟨c, hc, hci⟩ := Option.bind_eq_some_iff.1 hi
    obtain ⟨c', hc', hentry⟩ := hthere.get?_of_id? hci
    cases hj : (here.get? j).bind fun c => there.id? c.name with
    | none =>
      have hlt := index_lt_of_get? hc'
      rw [hi, hj, Option.getD_none, Option.getD_some] at hij
      rw [hij] at hlt
      exact absurd hlt (by simp)
    | some j' =>
      obtain ⟨d, hd, hdj⟩ := Option.bind_eq_some_iff.1 hj
      obtain ⟨d', hd', hentry'⟩ := hthere.get?_of_id? hdj
      rw [hi, hj, Option.getD_some, Option.getD_some] at hij
      subst hij
      obtain rfl : c' = d' := Option.some.inj (hc'.symm.trans hd')
      exact hhere.id_eq_of_entry hc hd (hentry.symm.trans hentry')

/-- Matching data is renumbered from one table to the other. -/
theorem Match.eq_relink_renumbering {α : Type} [Linked α] {a₁ a₂ : α} (h : Match w a₁ a₂)
    (hsound : w.2.Sound) : a₂ = relink (fun id _ => w.1.renumbering w.2 id) a₁ := by
  refine (h.eq_relink hsound).trans (relink_congr _ _ a₁ fun l hl => ?_)
  obtain ⟨c₁, hget₁, hname₁⟩ := h.left l hl
  have hmem : (w.2.number l.2, l.2) ∈ links a₂ := by
    rw [h.eq_relink hsound, links_relink]
    exact List.mem_map.2 ⟨l, hl, rfl⟩
  obtain ⟨c₂, hget₂, hname₂⟩ := h.right _ hmem
  have hid : w.2.id? c₂.name = Option.some (w.2.number l.2) := hsound.id?_of_get? hget₂
  rw [show c₂.name = l.2 from hname₂] at hid
  show w.2.number l.2 = w.1.renumbering w.2 l.1
  rw [Contents.renumbering, hget₁, Option.bind_some, hname₁, hid, Option.getD_some]

/-- **What was asked before cannot be seen.**  For any two sequences of inquiries, each served in a
run of its own, every inquiry is answered, and there is one renumbering of chapters that takes every
answer of the first run to the answer of the second run to the same inquiry, whether it is a value
or an error.  Pages hold no numbers and are the same to the last character. -/
theorem exists_renumbering_of_answers (rules : Links) (toHtml : String → String)
    (asked₁ asked₂ : List (Inquiry reg)) :
    let log₁ := ((serve rules toHtml asked₁).run {}).1
    let log₂ := ((serve rules toHtml asked₂).run {}).1
    log₁.map (·.inquiry) = asked₁ ∧ log₂.map (·.inquiry) = asked₂ ∧
      (∃ ρ : ChapterId → ChapterId, Function.Injective ρ ∧
        ∀ (inquiry : Inquiry reg) (a₁ a₂ : inquiry.Answer),
          ⟨inquiry, a₁⟩ ∈ log₁ → ⟨inquiry, a₂⟩ ∈ log₂ →
            a₂ = relink (fun id _ => ρ id) a₁) ∧
      (∀ title listed entry (page₁ page₂ : Except ResolveError String),
        ⟨.classPage title listed entry, page₁⟩ ∈ log₁ →
        ⟨.classPage title listed entry, page₂⟩ ∈ log₂ → page₁ = page₂) ∧
      ∀ title listed (page₁ page₂ : String),
        ⟨.indexPage title listed, page₁⟩ ∈ log₁ →
        ⟨.indexPage title listed, page₂⟩ ∈ log₂ → page₁ = page₂ := by
  intro log₁ log₂
  have hempty : Run.Sound ({} : Run reg) := Run.sound_empty
  obtain ⟨hsound₁, -, hlog₁⟩ := serve_spec rules toHtml asked₁ hempty
  obtain ⟨hsound₂, -, hlog₂⟩ := serve_spec rules toHtml asked₂ hempty
  have hmatch (inquiry : Inquiry reg) (a₁ a₂ : inquiry.Answer)
      (h₁ : ⟨inquiry, a₁⟩ ∈ log₁) (h₂ : ⟨inquiry, a₂⟩ ∈ log₂) :
      Match (tablesOf ((serve rules toHtml asked₁).run {}).2
        ((serve rules toHtml asked₂).run {}).2) a₁ a₂ := by
    -- each answer was given in a sound run, and its references have been valid ever since
    obtain ⟨run₁, hrun₁, hanswer₁, -⟩ := hlog₁ _ h₁
    obtain ⟨run₂, hrun₂, hanswer₂, -⟩ := hlog₂ _ h₂
    refine ⟨(hlog₁ _ h₁).valid, (hlog₂ _ h₂).valid, ?_⟩
    show erase a₁ = erase a₂
    rw [show a₁ = _ from hanswer₁, show a₂ = _ from hanswer₂]
    exact erase_perform_eq rules toHtml inquiry hrun₁ hrun₂
  refine ⟨map_inquiry_serve rules toHtml asked₁ {}, map_inquiry_serve rules toHtml asked₂ {},
    ⟨_, Contents.renumbering_injective hsound₁.contents hsound₂.contents, ?_⟩, ?_, ?_⟩
  · intro inquiry a₁ a₂ h₁ h₂
    exact (hmatch inquiry a₁ a₂ h₁ h₂).eq_relink_renumbering hsound₂.contents
  · intro title listed entry page₁ page₂ h₁ h₂
    have hpages := hmatch (.classPage title listed entry) page₁ page₂ h₁ h₂
    rcases Match.except_cases hpages with ⟨p₁, p₂, rfl, rfl, hp⟩ | ⟨e, rfl, rfl⟩
    · rw [hp.eq]
    · rfl
  · intro title listed page₁ page₂ h₁ h₂
    have hpages := hmatch (.indexPage title listed) page₁ page₂ h₁ h₂
    exact Match.eq hpages

end PhpHandbook.Handbook
