import Mathlib.Order.Basic
import Mathlib.Data.List.Nodup
import PhpHandbook.Proofs.Linked

/-!
# The numbers of chapters

A chapter is opened under the name of its declaration, whatever spelling the name was asked for
with.  So the index of the table of contents leads from the keys of the declarations to their
chapters, every declaration has one chapter at most, and the number of a chapter is its place.
A table only ever grows at its end.

## Main definitions

* `Contents.Sound`: the invariant of a table of contents.
* The order on `Contents`: a later table begins with the chapters of an earlier one.
* `Valid`: every reference in a piece of data leads to a chapter of the name beside it.

## Main statements

* `Contents.Sound.enter`: opening the chapter of a declaration keeps the invariant, and gives the
  chapter of that declaration.
* `Contents.Sound.id?_mono`: a name keeps its number in all later tables.
-/

namespace PhpHandbook.Registry

variable {reg : Registry}

/-! ### Looking up declarations -/

/-- Declarations with the same key are the same. -/
theorem entry_eq_of_key {e₁ e₂ : reg.Entry} (h : e₁.1.key = e₂.1.key) : e₁ = e₂ :=
  Subtype.ext (List.inj_on_of_nodup_map reg.distinct e₁.2 e₂.2 h)

/-- A declaration is found under its name. -/
theorem find?_name (e : reg.Entry) : reg.find? e.1.name = some e := by
  have hkey : classKey e.1.name = e.1.key := (reg.formed e.1 e.2).classKey_name
  show reg.findKey? (classKey e.1.name) = some e
  rw [hkey]
  cases hfind : reg.findKey? e.1.key with
  | none => exact absurd (List.mem_map_of_mem e.2) (not_mem_of_findKey? hfind)
  | some e' => rw [entry_eq_of_key (key_of_findKey? hfind)]

theorem key_of_find? {name : String} {e : reg.Entry} (h : reg.find? name = some e) :
    e.1.key = classKey name :=
  key_of_findKey? h

theorem setKey_of_not_mem {α : Type} {key : String} {value : α} {pairs : List (String × α)}
    (h : key ∉ pairs.map (·.1)) : setKey key value pairs = pairs ++ [(key, value)] := by
  induction pairs with
  | nil => rfl
  | cons p pairs ih =>
    simp only [List.map_cons, List.mem_cons, not_or] at h
    rw [setKey, if_neg (Ne.symm h.1), ih h.2, List.cons_append]

end PhpHandbook.Registry

namespace PhpHandbook.Handbook

open Registry (classKey entry_eq_of_key setKey setKey_of_not_mem)

variable {reg : Registry}

namespace Contents

/-! ### The invariant -/

/-- **A sound table of contents.** -/
structure Sound (contents : Contents reg) : Prop where
  /-- The number of a chapter is its place. -/
  numbered : contents.chapters.map (·.id) = (List.range contents.size).map ChapterId.mk
  /-- Chapters are found under the keys of their declarations. -/
  indexed : contents.index = contents.chapters.map fun c => (c.entry.1.key, c.id)
  /-- No two chapters are about the same declaration. -/
  distinct : (contents.chapters.map fun c => c.entry.1.key).Nodup

theorem sound_empty : Sound ({} : Contents reg) :=
  ⟨rfl, rfl, List.nodup_nil⟩

theorem get?_eq (contents : Contents reg) (id : ChapterId) :
    contents.get? id = contents.chapters[id.index]? :=
  (Array.getElem?_toList).symm

namespace Sound

variable {contents : Contents reg}

/-- The chapter with a number has that number. -/
theorem id_of_get? (h : contents.Sound) {id : ChapterId} {c : Chapter reg}
    (hget : contents.get? id = some c) : c.id = id := by
  rw [get?_eq] at hget
  have hid : (contents.chapters.map (·.id))[id.index]? = some c.id := by
    rw [List.getElem?_map, hget]
    rfl
  rw [h.numbered, List.getElem?_map] at hid
  obtain ⟨i, hi, hmk⟩ := Option.map_eq_some_iff.1 hid
  obtain ⟨hlt, rfl⟩ := List.getElem?_eq_some_iff.1 hi
  rw [← hmk, List.getElem_range]

/-- A chapter of the table stands at its number. -/
theorem get?_of_mem (h : contents.Sound) {c : Chapter reg} (hc : c ∈ contents.chapters) :
    contents.get? c.id = some c := by
  obtain ⟨i, hi⟩ := List.getElem?_of_mem hc
  have hget : contents.get? ⟨i⟩ = some c := by rw [get?_eq, hi]
  rwa [h.id_of_get? hget]

/-- A chapter is found under the key of its declaration. -/
theorem find?_eq (h : contents.Sound) (name : String) :
    contents.find? name = contents.chapters.find? (·.entry.1.key == classKey name) := by
  rw [find?, id?, h.indexed, List.find?_map]
  cases hfind : contents.chapters.find? (·.entry.1.key == classKey name) with
  | none =>
    have : contents.chapters.find?
      ((·.1 == classKey name) ∘ fun c => (c.entry.1.key, c.id)) = none := hfind
    rw [this]
    rfl
  | some c =>
    have : contents.chapters.find?
      ((·.1 == classKey name) ∘ fun c => (c.entry.1.key, c.id)) = some c := hfind
    rw [this]
    exact h.get?_of_mem (List.mem_of_find?_eq_some hfind)

end Sound

/-! ### Growth -/

/-- A table comes before another one if the other begins with its chapters. -/
instance : Preorder (Contents reg) where
  le before after := before.chapters <+: after.chapters
  le_refl _ := List.prefix_rfl
  le_trans _ _ _ := List.IsPrefix.trans

/-- A number keeps its chapter. -/
theorem get?_mono {before after : Contents reg} (hle : before ≤ after) {id : ChapterId}
    {c : Chapter reg} (hget : before.get? id = some c) : after.get? id = some c := by
  obtain ⟨later, hlater⟩ := hle
  rw [get?_eq] at hget ⊢
  obtain ⟨hlt, -⟩ := List.getElem?_eq_some_iff.1 hget
  rw [← hlater, List.getElem?_append_left hlt, hget]

/-- **A name keeps its number.** -/
theorem Sound.id?_mono {before after : Contents reg} (hbefore : before.Sound)
    (hafter : after.Sound) (hle : before ≤ after) {name : String} {id : ChapterId}
    (hid : before.id? name = some id) : after.id? name = some id := by
  obtain ⟨later, hlater⟩ := hle
  rw [id?, hbefore.indexed] at hid
  rw [id?, hafter.indexed, ← hlater, List.map_append, List.find?_append]
  cases hfind : List.find? (·.1 == classKey name)
      (before.chapters.map fun c => (c.entry.1.key, c.id)) with
  | none => simp [hfind] at hid
  | some p => simpa [hfind] using hid

/-- A new chapter at the end of a table. -/
theorem Sound.push {contents : Contents reg} (h : contents.Sound) {name : String}
    {e : reg.Entry} (hkey : classKey name = e.1.key)
    (hnew : contents.find? name = none) :
    Sound ⟨contents.rows.push ⟨⟨contents.size⟩, e⟩,
      setKey (classKey name) ⟨contents.size⟩ contents.index⟩ := by
  have hfresh : e.1.key ∉ contents.chapters.map fun c => c.entry.1.key := by
    -- a chapter with this key would have been found
    rw [h.find?_eq, List.find?_eq_none] at hnew
    rintro hmem
    obtain ⟨c, hc, hce⟩ := List.mem_map.1 hmem
    exact hnew c hc (by simp [hce, hkey])
  have hchapters : (⟨contents.rows.push ⟨⟨contents.size⟩, e⟩,
      setKey (classKey name) ⟨contents.size⟩ contents.index⟩ : Contents reg).chapters
        = contents.chapters ++ [⟨⟨contents.size⟩, e⟩] := by
    simp [chapters]
  refine ⟨?_, ?_, ?_⟩
  · rw [hchapters, List.map_append, h.numbered]
    simp [size, List.range_succ]
  · rw [hchapters, List.map_append, ← h.indexed, hkey]
    refine setKey_of_not_mem ?_
    rw [h.indexed, List.map_map]
    exact hfresh
  · rw [hchapters, List.map_append]
    exact List.nodup_append.2 ⟨h.distinct, by simp, by
      rintro k hk k' hk' rfl
      rw [List.mem_singleton.1 hk'] at hk
      exact hfresh hk⟩

/-- **Opening the chapter of a declaration.** -/
theorem Sound.enter {contents : Contents reg} (h : contents.Sound) (e : reg.Entry) :
    (contents.enter e.1.name e).2.Sound ∧ contents ≤ (contents.enter e.1.name e).2 ∧
      (contents.enter e.1.name e).2.get? (contents.enter e.1.name e).1.id
        = some (contents.enter e.1.name e).1 ∧
      (contents.enter e.1.name e).1.entry = e := by
  have hkey : classKey e.1.name = e.1.key := (reg.formed e.1 e.2).classKey_name
  unfold Contents.enter
  cases hfind : contents.find? e.1.name with
  | some c =>
    rw [h.find?_eq] at hfind
    have hc : c.entry.1.key = e.1.key := by
      have := List.find?_some hfind
      rw [beq_iff_eq] at this
      rw [this, hkey]
    exact ⟨h, le_refl _, h.get?_of_mem (List.mem_of_find?_eq_some hfind), entry_eq_of_key hc⟩
  | none =>
    -- the new chapter gets the first free number
    have hpush := h.push hkey hfind
    refine ⟨hpush, ⟨[⟨⟨contents.size⟩, e⟩], by simp [chapters]⟩, ?_, rfl⟩
    exact hpush.get?_of_mem (by simp [chapters])

end Contents

/-! ### Names and numbers -/

/-- A chapter of a table is found under its name. -/
theorem Contents.Sound.id?_of_get? {contents : Contents reg} (h : contents.Sound)
    {id : ChapterId} {c : Chapter reg} (hget : contents.get? id = some c) :
    contents.id? c.name = some id := by
  have hmem : c ∈ contents.chapters := by
    rw [get?_eq] at hget
    exact List.mem_of_getElem? hget
  have hkey : Registry.classKey c.name = c.entry.1.key :=
    (reg.formed c.entry.1 c.entry.2).classKey_name
  -- keys are distinct, so the first chapter with this key is the one at hand
  have hfind : contents.chapters.find? (·.entry.1.key == c.entry.1.key) = some c := by
    cases hfind : contents.chapters.find? (·.entry.1.key == c.entry.1.key) with
    | none => exact absurd (List.find?_eq_none.1 hfind c hmem) (by simp)
    | some c' =>
      have hkey' : c'.entry.1.key = c.entry.1.key := by simpa using List.find?_some hfind
      rw [List.inj_on_of_nodup_map h.distinct (List.mem_of_find?_eq_some hfind) hmem hkey']
  rw [id?, h.indexed, hkey, List.find?_map]
  show (((contents.chapters.find? (·.entry.1.key == c.entry.1.key)).map _).map _) = some id
  rw [hfind, ← h.id_of_get? hget]
  rfl

/-- The number of a chapter is found under every spelling of its name. -/
theorem Contents.Sound.id?_of_find? {contents : Contents reg} (h : contents.Sound) {name : String}
    {c : Chapter reg} (hfind : reg.find? name = some c.entry)
    (hget : contents.get? c.id = some c) : contents.id? name = some c.id := by
  have hkey : Registry.classKey name = Registry.classKey c.name := by
    rw [← Registry.key_of_find? hfind]
    exact (reg.formed c.entry.1 c.entry.2).classKey_name.symm
  rw [← h.id?_of_get? hget, id?, id?, hkey]

/-- A number that a table gives is that of a chapter with the name it was given for. -/
theorem Contents.Sound.get?_of_id? {contents : Contents reg} (h : contents.Sound) {c : Chapter reg}
    {id : ChapterId} (hid : contents.id? c.name = some id) :
    ∃ c', contents.get? id = some c' ∧ c'.entry = c.entry := by
  have hkey : Registry.classKey c.name = c.entry.1.key :=
    (reg.formed c.entry.1 c.entry.2).classKey_name
  rw [id?, h.indexed, hkey, List.find?_map] at hid
  obtain ⟨p, hp, rfl⟩ := Option.map_eq_some_iff.1 hid
  obtain ⟨c', hc', rfl⟩ := Option.map_eq_some_iff.1 hp
  refine ⟨c', h.get?_of_mem (List.mem_of_find?_eq_some hc'), Registry.entry_eq_of_key ?_⟩
  simpa using List.find?_some hc'

/-- Two numbers of chapters that are about the same declaration are equal. -/
theorem Contents.Sound.id_eq_of_entry {contents : Contents reg} (h : contents.Sound)
    {i j : ChapterId} {c d : Chapter reg} (hi : contents.get? i = some c)
    (hj : contents.get? j = some d) (hentry : c.entry = d.entry) : i = j := by
  have hci := h.id?_of_get? hi
  have hdj := h.id?_of_get? hj
  rw [Chapter.name, hentry] at hci
  exact Option.some.inj (hci.symm.trans hdj)

/-- A number of a table is below its size. -/
theorem Contents.index_lt_of_get? {contents : Contents reg} {id : ChapterId} {c : Chapter reg}
    (hget : contents.get? id = some c) : id.index < contents.size := by
  obtain ⟨hlt, -⟩ := Array.getElem?_eq_some_iff.1 hget
  exact hlt

/-! ### References that lead to their chapters -/

/-- **Valid data**: every reference in it leads to a chapter of the name beside it. -/
def Valid {α : Type} [Linked α] (contents : Contents reg) (a : α) : Prop :=
  ∀ l ∈ links a, ∃ c, contents.get? l.1 = some c ∧ c.name = l.2

theorem Valid.mono {α : Type} [Linked α] {before after : Contents reg} {a : α}
    (h : Valid before a) (hle : before ≤ after) : Valid after a := by
  intro l hl
  obtain ⟨c, hget, hname⟩ := h l hl
  exact ⟨c, Contents.get?_mono hle hget, hname⟩

/-- Data whose references are among those of valid data is valid. -/
theorem Valid.of_subset {α β : Type} [Linked α] [Linked β] {contents : Contents reg} {a : α}
    {b : β} (h : Valid contents a) (hsub : links b ⊆ links a) : Valid contents b :=
  fun l hl => h l (hsub hl)

section Parts

variable {α β : Type} [Linked α] [Linked β] {contents : Contents reg}

theorem Valid.fst {p : α × β} (h : Valid contents p) : Valid contents p.1 :=
  h.of_subset (List.subset_append_left _ _)

theorem Valid.snd {p : α × β} (h : Valid contents p) : Valid contents p.2 :=
  h.of_subset (List.subset_append_right _ _)

theorem Valid.of_mem {a : α} {as : List α} (h : Valid contents as) (ha : a ∈ as) :
    Valid contents a :=
  h.of_subset fun _ hl => List.mem_flatMap.2 ⟨a, ha, hl⟩

theorem Valid.of_mem_toList {a : α} {o : Option α} (h : Valid contents o) (ha : a ∈ o.toList) :
    Valid contents a := by
  obtain rfl := Option.mem_toList.1 ha
  exact h

end Parts

/-- Declarations with the same name are the same. -/
theorem entry_eq_of_name {c₁ c₂ : Chapter reg} (h : c₁.name = c₂.name) :
    c₁.entry = c₂.entry := by
  refine entry_eq_of_key ?_
  rw [Registry.ClassEntry.key, Registry.ClassEntry.key]
  exact congrArg Registry.lower h

/-- A valid chapter stands in the table. -/
theorem Valid.get? {contents : Contents reg} (hsound : contents.Sound) {c : Chapter reg}
    (h : Valid contents c) : contents.get? c.id = some c := by
  obtain ⟨c', hget, hname⟩ := h (c.id, c.name) List.mem_cons_self
  have hid : c'.id = c.id := hsound.id_of_get? hget
  have hentry : c'.entry = c.entry := entry_eq_of_name hname
  rw [hget]
  cases c
  cases c'
  simp_all

end PhpHandbook.Handbook
