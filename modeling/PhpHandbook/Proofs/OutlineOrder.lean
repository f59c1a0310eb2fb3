import Mathlib.Data.List.Induction
import PhpHandbook.Proofs.OutlineMap
import PhpHandbook.Proofs.PageFiles

/-!
# Outlines are sorted indexes

An outline files values by namespace and name.  The values stand in reading order: at every
namespace those of its subnamespaces come first, in the order of their last parts, and its own come
behind them, in the order of their names.  Written out with their places, the values of a tidy
section are a list in that order, and to place a value is to put one entry into the list, instead of
an older one for the same place if there is one.  What an outline holds follows from this step by
induction on the values.

## Main definitions

* `Place`, `Place.Before`: where values are filed, and the reading order of places.
* `Section.entries`: the values of a section with their places.
* `Section.Tidy`: keys ascend, and subnamespaces are named after their parents.
* `Outline.of`: the outline of values that say where they belong.
* `IsIndex`: what an outline holds, in which order, and under which names.

## Main statements

* `exists_alter`: changing the value of a key in an ascending list.
* `Section.Tidy.placed`: placing a value changes one entry.
* `isIndex_of`: an outline is a sorted index of the values that were placed.
* `IsIndex.all_eq`: the index depends on the order among values of one place only.
-/

namespace PhpHandbook.Handbook

variable {α : Type}

/-! ### Ascending lists of pairs -/

@[simp]
theorem valueAt?_nil (key : String) : valueAt? key ([] : List (String × α)) = none :=
  rfl

theorem valueAt?_cons (key : String) (p : String × α) (pairs : List (String × α)) :
    valueAt? key (p :: pairs) = if p.1 = key then some p.2 else valueAt? key pairs := by
  rw [valueAt?, List.find?_cons]
  by_cases h : p.1 = key
  · rw [if_pos h, beq_iff_eq.2 h]
    rfl
  · rw [if_neg h, beq_eq_false_iff_ne.2 h]
    rfl

theorem valueAt?_append (key : String) (pairs pairs' : List (String × α)) :
    valueAt? key (pairs ++ pairs') = (valueAt? key pairs).or (valueAt? key pairs') := by
  rw [valueAt?, List.find?_append, Option.map_or]
  rfl

theorem valueAt?_eq_none {key : String} {pairs : List (String × α)}
    (h : ∀ p ∈ pairs, p.1 ≠ key) :
    valueAt? key pairs = none := by
  rw [valueAt?, List.find?_eq_none.2 fun p hp => by simpa using h p hp, Option.map_none]

theorem mem_of_valueAt?_eq_some {key : String} {pairs : List (String × α)} {a : α}
    (h : valueAt? key pairs = some a) : (key, a) ∈ pairs := by
  obtain ⟨p, hp, rfl⟩ := Option.map_eq_some_iff.1 h
  have hkey : p.1 = key := by simpa using List.find?_some hp
  exact hkey ▸ List.mem_of_find?_eq_some hp

/-- **Changing the value of a key** in an ascending list leaves everything on both sides of it. -/
theorem exists_alter (key : String) {pairs : List (String × α)}
    (h : pairs.Pairwise (·.1 < ·.1)) :
    ∃ front back, (∀ p ∈ front, p.1 < key) ∧ (∀ p ∈ back, key < p.1) ∧
      pairs = front ++ ((valueAt? key pairs).map (key, ·)).toList ++ back ∧
      ∀ f, alter key f pairs = front ++ (key, f (valueAt? key pairs)) :: back := by
  induction pairs with
  | nil => exact ⟨[], [], nofun, nofun, rfl, fun _ => rfl⟩
  | cons p pairs ih =>
    obtain ⟨k, v⟩ := p
    obtain ⟨hk, hpairs⟩ := List.pairwise_cons.1 h
    rcases Std.lt_trichotomy k key with hlt | rfl | hgt
    · -- the key lies behind the first pair
      obtain ⟨front, back, hfront, hback, hsplit, halter⟩ := ih hpairs
      have hne : k ≠ key := String.ne_of_lt hlt
      have hvalue : valueAt? key ((k, v) :: pairs) = valueAt? key pairs := by
        rw [valueAt?_cons, if_neg hne]
      refine ⟨(k, v) :: front, back, List.forall_mem_cons.2 ⟨hlt, hfront⟩, hback, ?_,
        fun f => ?_⟩
      · rw [hvalue, List.cons_append, List.cons_append, ← hsplit]
      · rw [alter, if_neg hne, if_neg (String.lt_asymm hlt), halter, hvalue, List.cons_append]
    · -- it is there
      refine ⟨[], pairs, nofun, hk, ?_, fun f => ?_⟩
      · rw [valueAt?_cons, if_pos rfl]
        rfl
      · rw [alter, if_pos rfl, valueAt?_cons, if_pos rfl]
        rfl
    · -- all pairs lie behind it
      have hback : ∀ p ∈ (k, v) :: pairs, key < p.1 :=
        List.forall_mem_cons.2 ⟨hgt, fun p hp => String.lt_trans hgt (hk p hp)⟩
      have hvalue : valueAt? key ((k, v) :: pairs) = none :=
        valueAt?_eq_none fun p hp => (String.ne_of_lt (hback p hp)).symm
      have hne : k ≠ key := (String.ne_of_lt hgt).symm
      refine ⟨[], (k, v) :: pairs, nofun, hback, ?_, fun f => ?_⟩
      · rw [hvalue]
        rfl
      · rw [alter, if_neg hne, if_pos hgt, hvalue]
        rfl

theorem pairwise_alter {key : String} {pairs : List (String × α)}
    (h : pairs.Pairwise (·.1 < ·.1)) (f : Option α → α) :
    (alter key f pairs).Pairwise (·.1 < ·.1) := by
  obtain ⟨front, back, hfront, hback, hsplit, halter⟩ := exists_alter key h
  rw [hsplit, List.append_assoc, List.pairwise_append, List.pairwise_append] at h
  obtain ⟨hsorted, ⟨-, hsorted', -⟩, hsides⟩ := h
  rw [halter, List.pairwise_append, List.pairwise_cons]
  refine ⟨hsorted, ⟨hback, hsorted'⟩,
    fun p hp => List.forall_mem_cons.2 ⟨hfront p hp, fun q hq => ?_⟩⟩
  exact hsides p hp q (List.mem_append_right _ hq)

theorem valueAt?_alter {key : String} {pairs : List (String × α)}
    (h : pairs.Pairwise (·.1 < ·.1)) (f : Option α → α) (key' : String) :
    valueAt? key' (alter key f pairs)
      = if key = key' then some (f (valueAt? key pairs)) else valueAt? key' pairs := by
  obtain ⟨front, back, hfront, -, hsplit, halter⟩ := exists_alter key h
  rw [halter, valueAt?_append, valueAt?_cons]
  by_cases hkey : key = key'
  · subst hkey
    rw [if_pos rfl, if_pos rfl, valueAt?_eq_none fun p hp => String.ne_of_lt (hfront p hp),
      Option.none_or]
  · have hold : valueAt? key' ((valueAt? key pairs).map (key, ·)).toList = none :=
      valueAt?_eq_none fun p hp => by
        obtain ⟨a, -, rfl⟩ := Option.map_eq_some_iff.1 (Option.mem_toList.1 hp)
        exact hkey
    rw [if_neg hkey, if_neg hkey]
    conv => rhs; rw [hsplit, valueAt?_append, valueAt?_append, hold, Option.or_none]

/-! ### Places -/

/-- **Where a value is filed**: the parts of its namespace, and its name there. -/
structure Place where
  path : List String
  item : String
deriving DecidableEq

namespace Place

/-- **The reading order of places.** -/
inductive Before : Place → Place → Prop where
  /-- Names of one namespace ascend. -/
  | item {item item' : String} (h : item < item') : Before ⟨[], item⟩ ⟨[], item'⟩
  /-- What is in a subnamespace comes before the names of the namespace itself. -/
  | inner {segment item item' : String} {path : List String} :
      Before ⟨segment :: path, item⟩ ⟨[], item'⟩
  /-- Subnamespaces ascend. -/
  | segment {segment segment' item item' : String} {path path' : List String}
      (h : segment < segment') :
      Before ⟨segment :: path, item⟩ ⟨segment' :: path', item'⟩
  /-- In one subnamespace the order is the same again. -/
  | within {segment item item' : String} {path path' : List String}
      (h : Before ⟨path, item⟩ ⟨path', item'⟩) :
        Before ⟨segment :: path, item⟩ ⟨segment :: path', item'⟩

theorem Before.asymm {k l : Place} (h : k.Before l) : ¬l.Before k := by
  induction h with
  | item h =>
    rintro ⟨h'⟩
    exact String.lt_asymm h ‹_›
  | inner => nofun
  | segment h =>
    rintro (_ | _ | h' | _)
    · exact String.lt_asymm h h'
    · exact String.lt_irrefl _ h
  | within _ ih =>
    rintro (_ | _ | h' | h')
    · exact String.lt_irrefl _ h'
    · exact ih h'

theorem Before.ne {k l : Place} (h : k.Before l) : k ≠ l := by
  rintro rfl
  exact h.asymm h

end Place

/-! ### One more value -/

/-- **A list of entries with one more value**, which takes the place of an old one at the same
place. -/
def Placed (k : Place) (value : α) (old : Option α) (before after : List (Place × α)) : Prop :=
  ∃ front back, (∀ entry ∈ front, entry.1.Before k) ∧
    (∀ entry ∈ back, k.Before entry.1) ∧
    before = front ++ (old.map (k, ·)).toList ++ back ∧ after = front ++ (k, value) :: back

namespace Placed

variable {k : Place} {value : α} {old : Option α} {before after : List (Place × α)}

theorem pairwise (h : Placed k value old before after)
    (hbefore : before.Pairwise fun entry other => entry.1.Before other.1) :
    after.Pairwise fun entry other => entry.1.Before other.1 := by
  obtain ⟨front, back, hfront, hback, rfl, rfl⟩ := h
  rw [List.append_assoc, List.pairwise_append, List.pairwise_append] at hbefore
  obtain ⟨hsorted, ⟨-, hsorted', -⟩, hsides⟩ := hbefore
  rw [List.pairwise_append, List.pairwise_cons]
  refine ⟨hsorted, ⟨hback, hsorted'⟩, fun entry hentry => ?_⟩
  refine List.forall_mem_cons.2 ⟨hfront entry hentry, ?_⟩
  exact fun other hother => hsides entry hentry other (List.mem_append_right _ hother)

/-- Only the value at the place is new. -/
theorem filter_eq (h : Placed k value old before after) (l : Place) :
    after.filter (fun entry => entry.1 = l)
      = if k = l then [(k, value)] else before.filter fun entry => entry.1 = l := by
  obtain ⟨front, back, hfront, hback, rfl, rfl⟩ := h
  rw [List.filter_append, List.filter_cons]
  by_cases hl : k = l
  · subst hl
    have hnone : ∀ {entries : List (Place × α)}, (∀ entry ∈ entries, entry.1 ≠ k) →
        entries.filter (fun entry => entry.1 = k) = [] := fun h =>
      List.filter_eq_nil_iff.2 fun entry hentry => by simpa using h entry hentry
    rw [hnone fun entry hentry => (hfront entry hentry).ne,
      hnone fun entry hentry => (hback entry hentry).ne.symm]
    simp
  · have hold : ((old.map (k, ·)).toList).filter (fun entry => entry.1 = l) = [] :=
      List.filter_eq_nil_iff.2 fun entry hentry => by
        obtain ⟨a, -, rfl⟩ := Option.map_eq_some_iff.1 (Option.mem_toList.1 hentry)
        simpa using hl
    rw [List.filter_append, List.filter_append, hold]
    simp [hl]

theorem length_eq (h : Placed k value old before after) :
    after.length = if old.isSome then before.length else before.length + 1 := by
  obtain ⟨front, back, -, -, rfl, rfl⟩ := h
  cases old <;> simp
  omega

end Placed

/-! ### Entries -/

namespace Section

/-- An item of a namespace as an entry. -/
def entryHere (p : String × α) : Place × α :=
  (⟨[], p.1⟩, p.2)

/-- An entry as it is seen from the parent of a namespace. -/
def entryBelow (segment : String) (entry : Place × α) : Place × α :=
  (⟨segment :: entry.1.path, entry.1.item⟩, entry.2)

mutual

/-- **The values of a section with their places**, in the order in which they are listed. -/
def entries : Section α → List (Place × α)
  | .mk _ sections items => entriesIn sections ++ items.map entryHere

/-- The values of several sections with their places. -/
def entriesIn : List (String × Section α) → List (Place × α)
  | [] => []
  | (segment, s) :: rest => s.entries.map (entryBelow segment) ++ entriesIn rest

end

theorem entriesIn_append (sections sections' : List (String × Section α)) :
    entriesIn (sections ++ sections') = entriesIn sections ++ entriesIn sections' := by
  induction sections with
  | nil => rfl
  | cons p sections ih => rw [List.cons_append, entriesIn, ih, entriesIn, List.append_assoc]

theorem mem_entriesIn {sections : List (String × Section α)} {entry : Place × α} :
    entry ∈ entriesIn sections ↔
      ∃ p ∈ sections, ∃ inner ∈ p.2.entries, entryBelow p.1 inner = entry := by
  induction sections with
  | nil => simp [entriesIn]
  | cons p sections ih => simp [entriesIn, ih]

theorem map_entries (s : Section α) : s.entries.map (·.2) = s.all := by
  induction s using Section.induction with
  | mk name sections items ih =>
    have hsections : (entriesIn sections).map (·.2) = allIn sections := by
      induction sections with
      | nil => rfl
      | cons p sections ihs =>
        obtain ⟨hp, hsections⟩ := List.forall_mem_cons.1 ih
        rw [entriesIn, List.map_append, List.map_map, allIn, ihs hsections, ← hp]
        rfl
    rw [entries, all, List.map_append, hsections, List.map_map]
    rfl

/-- The value at a place. -/
def value? (k : Place) (s : Section α) : Option α :=
  (s.find? k.path).bind fun t => valueAt? k.item t.items

/-! ### Tidy sections -/

/-- **A tidy section**: keys ascend, and every subnamespace is named after its parent. -/
inductive Tidy : Section α → Prop where
  | mk {name : String} {sections : List (String × Section α)} {items : List (String × α)}
      (hsections : sections.Pairwise (·.1 < ·.1)) (hitems : items.Pairwise (·.1 < ·.1))
      (hnames : ∀ p ∈ sections, p.2.name = subname name p.1)
      (hinner : ∀ p ∈ sections, p.2.Tidy) :
      Tidy (.mk name sections items)

theorem tidy_empty (name : String) : (mk name [] [] : Section α).Tidy :=
  .mk .nil .nil nofun nofun

theorem name_insert (item : String) (value : α) (path : List String) (s : Section α) :
    (s.insert item value path).name = s.name := by
  cases s
  cases path <;> rfl

/-- **Placing a value keeps a section tidy.** -/
theorem Tidy.insert {s : Section α} (h : s.Tidy) (item : String) (value : α)
    (path : List String) :
    (s.insert item value path).Tidy := by
  induction path generalizing s with
  | nil =>
    obtain ⟨hsections, hitems, hnames, hinner⟩ := h
    exact .mk hsections (pairwise_alter hitems _) hnames hinner
  | cons segment path ih =>
    obtain ⟨hsections, hitems, hnames, hinner⟩ := h
    refine .mk (pairwise_alter hsections _) hitems ?_ ?_
    · refine forall_mem_alter hnames (name_insert ..) fun t ht => ?_
      rw [name_insert]
      exact hnames _ ht
    · exact forall_mem_alter hinner (ih (tidy_empty _)) fun t ht => ih (hinner _ ht)

/-- The subnamespace that an item is placed in, which may be new. -/
def inner (name segment : String) (sections : List (String × Section α)) : Section α :=
  (valueAt? segment sections).getD (.mk (subname name segment) [] [])

theorem tidy_inner {name segment : String} {sections : List (String × Section α)}
    (hinner : ∀ p ∈ sections, p.2.Tidy) : (inner name segment sections).Tidy := by
  unfold inner
  cases h : valueAt? segment sections with
  | none => exact tidy_empty _
  | some s => exact hinner _ (mem_of_valueAt?_eq_some h)

/-- A new subnamespace has no entries. -/
theorem entriesIn_toList (name segment : String) (sections : List (String × Section α)) :
    entriesIn ((valueAt? segment sections).map (segment, ·)).toList
      = (inner name segment sections).entries.map (entryBelow segment) := by
  unfold inner
  cases valueAt? segment sections with
  | none => rfl
  | some s => exact List.append_nil _

theorem value?_cons (name segment item : String) (path : List String)
    (sections : List (String × Section α)) (items : List (String × α)) :
    (mk name sections items).value? ⟨segment :: path, item⟩
      = (inner name segment sections).value? ⟨path, item⟩ := by
  unfold inner
  rw [value?, find?, Section.sections]
  cases valueAt? segment sections with
  | none => cases path <;> rfl
  | some s => rfl

/-- **Placing a value changes one entry.** -/
theorem Tidy.placed {s : Section α} (h : s.Tidy) (item : String) (value : α)
    (path : List String) :
    Placed ⟨path, item⟩ value (s.value? ⟨path, item⟩) s.entries
      (s.insert item value path).entries := by
  induction path generalizing s with
  | nil =>
    obtain @⟨name, sections, items, -, hitems, -, -⟩ := h
    obtain ⟨front, back, hfront, hback, hsplit, halter⟩ := exists_alter item hitems
    refine ⟨entriesIn sections ++ front.map entryHere, back.map entryHere, ?_, ?_, ?_, ?_⟩
    · refine List.forall_mem_append.2 ⟨fun entry hentry => ?_, ?_⟩
      · obtain ⟨p, -, inner, -, rfl⟩ := mem_entriesIn.1 hentry
        exact .inner
      · exact List.forall_mem_map.2 fun p hp => .item (hfront p hp)
    · exact List.forall_mem_map.2 fun p hp => .item (hback p hp)
    · have hentries : items.map entryHere = front.map entryHere
          ++ ((valueAt? item items).map (⟨[], item⟩, ·)).toList ++ back.map entryHere := by
        conv => lhs; rw [hsplit]
        rw [List.map_append, List.map_append]
        cases valueAt? item items <;> rfl
      rw [entries, hentries, List.append_assoc, ← List.append_assoc, ← List.append_assoc]
      rfl
    · rw [Section.insert, entries, halter, List.map_append, ← List.append_assoc]
      rfl
  | cons segment path ih =>
    obtain @⟨name, sections, items, hsections, -, -, hinner⟩ := h
    obtain ⟨outer, outer', houter, houter', hsplit, halter⟩ := exists_alter segment hsections
    obtain ⟨front, back, hfront, hback, hentries, hinsert⟩ :=
      ih (@tidy_inner _ name segment sections hinner)
    refine ⟨entriesIn outer ++ front.map (entryBelow segment),
      back.map (entryBelow segment) ++ entriesIn outer' ++ items.map entryHere, ?_, ?_, ?_, ?_⟩
    · refine List.forall_mem_append.2 ⟨fun entry hentry => ?_, ?_⟩
      · obtain ⟨p, hp, inner, -, rfl⟩ := mem_entriesIn.1 hentry
        exact .segment (houter p hp)
      · exact List.forall_mem_map.2 fun entry hentry => .within (hfront entry hentry)
    · refine List.forall_mem_append.2
        ⟨List.forall_mem_append.2 ⟨?_, fun entry hentry => ?_⟩, ?_⟩
      · exact List.forall_mem_map.2 fun entry hentry => .within (hback entry hentry)
      · obtain ⟨p, hp, inner, -, rfl⟩ := mem_entriesIn.1 hentry
        exact .segment (houter' p hp)
      · exact List.forall_mem_map.2 fun p _ => .inner
    · rw [value?_cons, entries]
      conv => lhs; rw [hsplit]
      rw [entriesIn_append, entriesIn_append, entriesIn_toList name, hentries]
      simp only [List.map_append, List.append_assoc]
      cases (inner name segment sections).value? ⟨path, item⟩ <;> rfl
    · rw [Section.insert, entries, halter, entriesIn_append, entriesIn]
      show _ ++ (((inner name segment sections).insert item value path).entries.map _ ++ _) ++ _ = _
      rw [hinsert]
      simp only [List.map_append, List.map_cons, List.append_assoc, List.cons_append]
      rfl

/-! ### Finding sections -/

theorem isSome_find?_empty (name : String) (path : List String) :
    ((mk name [] [] : Section α).find? path).isSome ↔ path = [] := by
  cases path <;> simp [find?, Section.sections]

/-- **The namespaces that are there** after a value has been placed: those on the way to it are
new. -/
theorem Tidy.isSome_find?_insert {s : Section α} (h : s.Tidy) (item : String) (value : α)
    (path sought : List String) :
    ((s.insert item value path).find? sought).isSome ↔
    (s.find? sought).isSome ∨ sought <+: path := by
  induction path generalizing s sought with
  | nil =>
    obtain @⟨name, sections, items, -, -, -, -⟩ := h
    cases sought with
    | nil => simp [Section.insert, find?]
    | cons first sought =>
      simp [Section.insert, find?, Section.sections]
  | cons segment path ih =>
    obtain @⟨name, sections, items, hsections, -, -, hinner⟩ := h
    cases sought with
    | nil => simp [Section.insert, find?]
    | cons first sought =>
      have hold : (Section.mk name sections items).find? (first :: sought)
          = (valueAt? first sections).bind (find? sought) := rfl
      rw [Section.insert, find?, Section.sections, valueAt?_alter hsections, List.cons_prefix_cons,
        hold]
      by_cases heq : segment = first
      · subst heq
        have hnew := ih (@tidy_inner _ name segment sections hinner) sought
        rw [if_pos rfl, Option.bind_some]
        refine hnew.trans ?_
        unfold inner
        cases valueAt? segment sections with
        | some t => simp
        | none =>
          -- the way to the value begins here
          rw [Option.getD_none, isSome_find?_empty]
          simp only [Option.bind_none, Option.isSome_none, Bool.false_eq_true, true_and, false_or]
          exact or_iff_right_of_imp fun hnil => hnil ▸ List.nil_prefix
      · rw [if_neg heq]
        simp [Ne.symm heq]

/-- The name of a namespace is made of the parts that lead to it. -/
theorem Tidy.name_of_find? {s t : Section α} (h : s.Tidy) {path : List String}
    (hfind : s.find? path = some t) : t.name = path.foldl subname s.name := by
  induction path generalizing s with
  | nil =>
    cases hfind
    rfl
  | cons segment path ih =>
    obtain @⟨name, sections, items, -, -, hnames, hinner⟩ := h
    obtain ⟨c, hc, hfind⟩ := Option.bind_eq_some_iff.1 hfind
    have hmem := mem_of_valueAt?_eq_some hc
    rw [ih (hinner _ hmem) hfind, hnames _ hmem]
    rfl

theorem foldl_subname {name : String} (h : name ≠ "") (path : List String) :
    path.foldl subname name = "\\".intercalate (name :: path) := by
  induction path generalizing name with
  | nil => rw [List.foldl_nil, String.intercalate_singleton]
  | cons segment path ih =>
    have hname : subname name segment = name ++ "\\" ++ segment := by
      rw [subname, if_neg (by simpa using h)]
    rw [List.foldl_cons, hname, ih (by simp), String.intercalate_cons_cons]
    cases path with
    | nil => rw [String.intercalate_singleton, String.intercalate_singleton]
    | cons =>
      rw [String.intercalate_cons_cons, String.intercalate_cons_cons]
      simp only [String.append_assoc]

end Section

/-! ### Outlines -/

namespace Outline

theorem pathOf_empty : pathOf "" = [] :=
  rfl

theorem pathOf_of_ne {space : String} (h : space ≠ "") :
    pathOf space = Text.split '\\' space := by
  rw [pathOf, if_neg (by simpa using h)]

theorem pathOf_injective : Function.Injective pathOf := by
  have hsplit (space : String) : Text.split '\\' space ≠ [] := by
    rw [Text.split, Text.splitChars_eq_splitOn]
    exact fun h => List.splitOn_ne_nil _ _ (List.map_eq_nil_iff.1 h)
  intro space space' h
  by_cases hspace : space = "" <;> by_cases hspace' : space' = ""
  · rw [hspace, hspace']
  · rw [hspace, pathOf_empty, pathOf_of_ne hspace'] at h
    exact absurd h.symm (hsplit space')
  · rw [hspace', pathOf_empty, pathOf_of_ne hspace] at h
    exact absurd h (hsplit space)
  · rw [pathOf_of_ne hspace, pathOf_of_ne hspace'] at h
    exact Text.split_injective _ h

/-- The first part of a namespace without a separator in front is not empty. -/
theorem ne_empty_of_pathOf {space first : String} {path : List String}
    (h : space.toList.head? ≠ some '\\') (hpath : pathOf space = first :: path) :
    first ≠ "" := by
  have hspace : space ≠ "" := by
    rintro rfl
    cases hpath
  rw [pathOf_of_ne hspace, Text.split] at hpath
  obtain ⟨c, cs, hcs⟩ :=
    List.exists_cons_of_ne_nil fun hnil => hspace (String.toList_eq_nil_iff.1 hnil)
  have hc : c ≠ '\\' := by simpa [hcs] using h
  rw [hcs, Text.splitChars, if_neg hc] at hpath
  rintro rfl
  split at hpath
  · simp at hpath
  · simp at hpath

variable (space item : α → String)

/-- **The outline of values** that say in which namespace and under which name they belong. -/
def of (values : List α) : Outline α :=
  values.foldl (fun outline a => outline.insert (space a) (item a) a) {}

/-- Where a value belongs. -/
def place (a : α) : Place :=
  ⟨pathOf (space a), item a⟩

/-- **What an outline files**: the entries of its sections are the values that were placed last. -/
structure Files (values : List α) (outline : Outline α) : Prop where
  tidy : outline.root.Tidy
  name_eq : outline.root.name = ""
  ordered : outline.root.entries.Pairwise fun entry other => entry.1.Before other.1
  /-- At each place there is the value that was placed there last. -/
  filed : ∀ k, outline.root.entries.filter (fun entry => entry.1 = k)
    = ((values.filter (place space item · = k)).getLast?.map (k, ·)).toList
  size_eq : outline.size = outline.root.entries.length
  /-- The namespaces that lead to values are there. -/
  found : ∀ path, (outline.root.find? path).isSome ↔
    path = [] ∨ ∃ a ∈ values, path <+: pathOf (space a)

variable {space item}

theorem files_empty : Files space item [] {} where
  tidy := Section.tidy_empty ""
  name_eq := rfl
  ordered := .nil
  filed _ := rfl
  size_eq := rfl
  found path := by simpa using Section.isSome_find?_empty "" path

/-- **One more value** is filed. -/
theorem Files.insert {values : List α} {outline : Outline α} (h : Files space item values outline)
    (a : α) : Files space item (values ++ [a]) (outline.insert (space a) (item a) a) := by
  have hplaced := h.tidy.placed (item a) a (pathOf (space a))
  refine ⟨h.tidy.insert _ _ _, ?_, hplaced.pairwise h.ordered, fun k => ?_, ?_, fun path => ?_⟩
  · rw [← h.name_eq]
    exact Section.name_insert ..
  · refine (hplaced.filter_eq k).trans ?_
    rw [List.filter_append, h.filed]
    by_cases hk : place space item a = k
    · subst hk
      simp [place]
    · have hk' : ¬(⟨pathOf (space a), item a⟩ : Place) = k := hk
      simp [hk, hk']
  · refine Eq.trans ?_ hplaced.length_eq.symm
    rw [Section.value?, Option.isSome_bind, ← h.size_eq]
    rfl
  · refine (h.tidy.isSome_find?_insert _ _ _ path).trans ?_
    rw [h.found]
    simp only [List.mem_append, List.mem_singleton, or_and_right, exists_or,
      exists_eq_left, or_assoc]

theorem files_of (values : List α) : Files space item values (of space item values) := by
  induction values using List.reverseRecOn with
  | nil => exact files_empty
  | append_singleton values a ih =>
    rw [of, List.foldl_append]
    exact ih.insert a

/-! ### What an outline holds -/

variable (space item)

/-- **A sorted index** of values by namespace and name, without losses. -/
structure IsIndex (values : List α) (outline : Outline α) : Prop where
  /-- Under each namespace and name there is the value that was placed there last, and no other. -/
  last : ∀ namespace' name, outline.all.filter (fun a => space a = namespace' ∧ item a = name)
    = (values.filter fun a => space a = namespace' ∧ item a = name).getLast?.toList
  /-- The values are counted. -/
  size_eq : outline.size = outline.all.length
  /-- The values stand in reading order. -/
  ordered : outline.all.Pairwise fun a b => (place space item a).Before (place space item b)
  /-- Every namespace is named after the parts that lead to it. -/
  named : ∀ path s, outline.root.find? path = some s → s.name = "\\".intercalate path
  /-- A namespace is found exactly if there is a value in it or below it. -/
  found : ∀ name, (outline.find? name).isSome ↔
    bare name = "" ∨ ∃ a ∈ values, pathOf (bare name) <+: pathOf (space a)

variable {space item}

namespace Files

variable {values : List α} {outline : Outline α}

/-- Values are filed where they belong. -/
theorem place_of_mem (h : Files space item values outline) {entry : Place × α}
    (hentry : entry ∈ outline.root.entries) : place space item entry.2 = entry.1 := by
  have hmem : entry ∈ outline.root.entries.filter fun other => other.1 = entry.1 :=
    List.mem_filter.2 ⟨hentry, by simp⟩
  rw [h.filed, Option.mem_toList, Option.map_eq_some_iff] at hmem
  obtain ⟨a, ha, heq⟩ := hmem
  have hplace := (List.mem_filter.1 (List.mem_of_getLast? ha)).2
  rw [← heq]
  simpa using hplace

theorem isIndex (h : Files space item values outline)
    (hspace : ∀ a ∈ values, (space a).toList.head? ≠ some '\\') :
    IsIndex space item values outline := by
  have hall : outline.all = outline.root.entries.map (·.2) := (Section.map_entries _).symm
  refine ⟨fun namespace' name => ?_, ?_, ?_, fun path s hfind => ?_, fun name => ?_⟩
  · have hplace (a : α) : (space a = namespace' ∧ item a = name) ↔
        place space item a = ⟨pathOf namespace', name⟩ := by
      rw [place, Place.mk.injEq, pathOf_injective.eq_iff]
    simp only [hplace]
    have hfilter : outline.root.entries.filter
          ((fun a => decide (place space item a = ⟨pathOf namespace', name⟩)) ∘ (·.2))
        = outline.root.entries.filter fun entry => entry.1 = ⟨pathOf namespace', name⟩ :=
      List.filter_congr fun entry hentry => by
        simp only [Function.comp, h.place_of_mem hentry]
    rw [hall, List.filter_map, hfilter, h.filed]
    cases (values.filter (place space item · = ⟨pathOf namespace', name⟩)).getLast? <;> rfl
  · rw [h.size_eq, hall, List.length_map]
  · rw [hall, List.pairwise_map]
    refine h.ordered.imp_of_mem fun hentry hother hbefore => ?_
    rwa [h.place_of_mem hentry, h.place_of_mem hother]
  · rw [h.tidy.name_of_find? hfind, h.name_eq]
    cases path with
    | nil => rfl
    | cons first path =>
      -- the first part begins a namespace, so it is not empty
      have hsome : (outline.root.find? (first :: path)).isSome := by rw [hfind]; rfl
      obtain hnil | ⟨a, ha, rest, hrest⟩ := (h.found _).1 hsome
      · cases hnil
      · exact Section.foldl_subname (ne_empty_of_pathOf (hspace a ha) hrest.symm) path
  · rw [find?, h.found]
    refine or_congr_left ?_
    rw [← pathOf_injective.eq_iff, pathOf_empty]

end Files

theorem isIndex_of {values : List α}
    (hspace : ∀ a ∈ values, (space a).toList.head? ≠ some '\\') :
    IsIndex space item values (of space item values) :=
  (files_of values).isIndex hspace

namespace IsIndex

variable {values values' : List α} {outline outline' : Outline α}

theorem mem_all_iff (h : IsIndex space item values outline) {a : α} : a ∈ outline.all ↔
    (values.filter fun b => space b = space a ∧ item b = item a).getLast? = some a := by
  rw [← Option.mem_toList, ← h.last, List.mem_filter]
  simp

theorem nodup (h : IsIndex space item values outline) : outline.all.Nodup :=
  h.ordered.imp fun hbefore heq => hbefore.ne (congrArg _ heq)

/-- **The index depends on the order among values of one place only.** -/
theorem all_eq (h : IsIndex space item values outline) (h' : IsIndex space item values' outline')
    (hsame : ∀ namespace' name, values'.filter (fun a => space a = namespace' ∧ item a = name)
      = values.filter fun a => space a = namespace' ∧ item a = name) :
    outline'.all = outline.all := by
  have hperm : outline'.all.Perm outline.all := by
    refine (List.perm_ext_iff_of_nodup h'.nodup h.nodup).2 fun a => ?_
    rw [h'.mem_all_iff, h.mem_all_iff, hsame]
  exact hperm.eq_of_pairwise (fun _ _ _ _ hab hba => absurd hba hab.asymm) h'.ordered h.ordered

/-- Values with different namespaces or names are all there. -/
theorem perm (h : IsIndex space item values outline)
    (hdistinct : (values.map fun a => (space a, item a)).Nodup) : outline.all.Perm values := by
  refine (List.perm_ext_iff_of_nodup h.nodup (hdistinct.of_map _)).2 fun a => h.mem_all_iff.trans ?_
  constructor
  · exact fun hlast => (List.mem_filter.1 (List.mem_of_getLast? hlast)).1
  · intro ha
    have hmem : a ∈ values.filter fun b => space b = space a ∧ item b = item a :=
      List.mem_filter.2 ⟨ha, by simp⟩
    have hlast := List.getLast?_eq_some_getLast (List.ne_nil_of_mem hmem)
    obtain ⟨hbmem, hsame⟩ := List.mem_filter.1 (List.mem_of_getLast? hlast)
    rw [hlast,
      List.inj_on_of_nodup_map hdistinct hbmem ha (Prod.ext_iff.2 (of_decide_eq_true hsame))]

end IsIndex

end Outline

end PhpHandbook.Handbook
