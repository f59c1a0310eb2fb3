import Mathlib.Logic.Relation
import PhpHandbook.Proofs.Walks
import PhpHandbook.Proofs.WrittenNames

/-!
# All interfaces of a declaration

A declaration has the interfaces that it names and those that its ancestors declare, and wherever
one of these is registered, the interfaces that this one has in the same way.  That is a least set
of names.  Gathering interfaces looks for it depth first, with one list of everything met so far,
and on the way climbs along parents with a path of its own.

A search of this kind may leave something out only if a name that was met is never followed.  While
it goes on, what follows from a name that was met has been met or is still to come; so at the end,
when nothing is to come, what was met is closed, also where parents and interfaces form cycles.

## Main definitions

* `Gives`: the names that a declaration gives, itself or through its ancestors.
* `HasInterface`: the least set of names that are interfaces of a declaration.
* `Gathering`: the invariant of the search.

## Main statements

* `mem_nearInterfaces`: a climb along parents misses no ancestor.
* `Gathering.closeInterfaces`: the search keeps its invariant to the end.
* `interfaceNames_eq_closure`: what is gathered is the least set, each name once.
-/

namespace PhpHandbook.Hierarchy

open Registry (ClassEntry classKey lower)
open Source (beginsName)

variable {reg : Registry}

/-! ### Climbing -/

/-- A declaration has a parent. -/
def HasParent (e a : reg.Entry) : Prop :=
  parent? reg e.1 = some a

theorem ancestorsFrom_of_off {path : List String} {e p : reg.Entry} (hp : HasParent e p)
    (hoff : p.1.key ∉ path) :
    ancestorsFrom reg path e.1 = p :: ancestorsFrom reg (p.1.key :: path) p.1 := by
  rw [ancestorsFrom]
  split
  · next hnone => cases hnone.symm.trans hp
  · next q hq =>
    obtain rfl : q = p := Option.some.inj (hq.symm.trans hp)
    exact if_neg hoff

/-- What a climb comes past is the parent, or is come past from there. -/
theorem mem_ancestorsFrom {path : List String} {e a : reg.Entry}
    (h : a ∈ ancestorsFrom reg path e.1) :
    ∃ p, HasParent e p ∧ p.1.key ∉ path ∧
      (a = p ∨ a ∈ ancestorsFrom reg (p.1.key :: path) p.1) := by
  cases hp : parent? reg e.1 with
  | none =>
    rw [ancestorsFrom, hp] at h
    cases h
  | some p =>
    have hoff : p.1.key ∉ path := by
      intro hon
      rw [ancestorsFrom, hp] at h
      simp [hon] at h
    rw [ancestorsFrom_of_off hp hoff] at h
    exact ⟨p, hp, hoff, List.mem_cons.1 h⟩

theorem above_of_mem_ancestorsFrom {path : List String} {e a : reg.Entry}
    (h : a ∈ ancestorsFrom reg path e.1) : Relation.TransGen HasParent e a := by
  obtain ⟨p, hp, hoff, rfl | h⟩ := mem_ancestorsFrom h
  · exact .single hp
  · exact .head hp (above_of_mem_ancestorsFrom h)
termination_by reg.unvisited path
decreasing_by exact Registry.unvisited_cons_lt p.2 hoff

/-- **A climb stops at nothing but its path**: the parent of what it comes past is also come past,
or is on the path. -/
theorem parent_mem_ancestorsFrom {path : List String} {e x p : reg.Entry}
    (hx : x = e ∨ x ∈ ancestorsFrom reg path e.1) (hp : HasParent x p) :
    p ∈ ancestorsFrom reg path e.1 ∨ p.1.key ∈ path := by
  by_cases hon : p.1.key ∈ path
  · exact .inr hon
  · left
    rcases hx with rfl | hx
    · rw [ancestorsFrom_of_off hp hon]
      exact List.mem_cons_self
    · obtain ⟨q, hq, hoff, hx⟩ := mem_ancestorsFrom hx
      rw [ancestorsFrom_of_off hq hoff]
      rcases parent_mem_ancestorsFrom hx hp with hmem | hkey
      · exact List.mem_cons_of_mem q hmem
      · -- the path has grown by the declaration where the climb went on
        have hsame : p.1.key = q.1.key := (List.mem_cons.1 hkey).resolve_right hon
        rw [Registry.entry_eq_of_key hsame]
        exact List.mem_cons_self
termination_by reg.unvisited path
decreasing_by exact Registry.unvisited_cons_lt q.2 hoff

/-- Everything above a declaration is an ancestor, apart from the declaration itself. -/
theorem mem_ancestors_of_above {e a : reg.Entry} (h : Relation.TransGen HasParent e a) :
    a = e ∨ a ∈ ancestors reg e.1 := by
  have step : ∀ {x p : reg.Entry}, x = e ∨ x ∈ ancestors reg e.1 → HasParent x p →
      p = e ∨ p ∈ ancestors reg e.1 := by
    intro x p hx hp
    rcases parent_mem_ancestorsFrom hx hp with hmem | hkey
    · exact .inr hmem
    · exact .inl (Registry.entry_eq_of_key (List.mem_singleton.1 hkey))
  induction h with
  | single hp => exact step (.inl rfl) hp
  | tail _ hp ih => exact step ih hp

/-! ### The least set -/

/-- A declaration **gives** a name as an interface: it has the interface itself, or a declaration
above it declares the interface. -/
def Gives (e : reg.Entry) (name : String) : Prop :=
  name ∈ directInterfaces e.1 ∨
    ∃ a, Relation.TransGen HasParent e a ∧ name ∈ declaredInterfaces a.1

/-- **The interfaces of a declaration**, as the least set of names, in capital or small letters,
with those that the declaration gives and those that any registered interface in the set gives. -/
inductive HasInterface (e : reg.Entry) : String → Prop where
  | near {name : String} (h : Gives e name) : HasInterface e name
  | further {name more : String} {x : reg.Entry} (h : HasInterface e name)
      (hname : reg.find? name = some x) (hmore : Gives x more) : HasInterface e more
  | sameName {name name' : String} (h : HasInterface e name) (hname : lower name = lower name') :
      HasInterface e name'

/-- **A climb misses nothing**: the names near a declaration are those that it gives. -/
theorem mem_nearInterfaces {e : reg.Entry} {name : String} :
    name ∈ nearInterfaces reg e.1 ↔ Gives e name := by
  rw [nearInterfaces, List.mem_append, List.mem_flatMap]
  constructor
  · rintro (hdirect | ⟨a, ha, hname⟩)
    · exact .inl hdirect
    · exact .inr ⟨a, above_of_mem_ancestorsFrom ha, hname⟩
  · rintro (hdirect | ⟨a, ha, hname⟩)
    · exact .inl hdirect
    · rcases mem_ancestors_of_above ha with rfl | ha
      · -- a declaration that lies above itself
        exact .inl (List.mem_append_left _ hname)
      · exact .inr ⟨a, ha, hname⟩

/-! ### Gathering -/

/-- **The invariant of gathering interfaces**: no name is found twice, and what a found name leads
to is found or still to be looked at. -/
structure Gathering (reg : Registry) (found todo : List String) : Prop where
  distinct : (found.map classKey).Nodup
  followed : ∀ name ∈ found, ∀ x, reg.find? name = some x →
    ∀ m ∈ nearInterfaces reg x.1,
    classKey m ∈ (found ++ todo).map classKey

namespace Gathering

variable {found rest : List String} {name : String}

theorem mem_of_again (h : classKey name ∈ found.map classKey) {key : String}
    (hkey : key ∈ (found ++ name :: rest).map classKey) :
    key ∈ (found ++ rest).map classKey := by
  rw [List.map_append, List.mem_append, List.map_cons, List.mem_cons] at hkey
  rw [List.map_append, List.mem_append]
  rcases hkey with hkey | rfl | hkey
  · exact .inl hkey
  · exact .inl h
  · exact .inr hkey

theorem distinct_append (hg : Gathering reg found (name :: rest))
    (h : classKey name ∉ found.map classKey) : ((found ++ [name]).map classKey).Nodup := by
  rw [List.map_append, List.nodup_append]
  refine ⟨hg.distinct, List.nodup_singleton _, ?_⟩
  rintro key hkey _ hname rfl
  exact h (List.mem_singleton.1 hname ▸ hkey)

/-- A name that has been met is passed over. -/
theorem again (hg : Gathering reg found (name :: rest)) (h : classKey name ∈ found.map classKey) :
    Gathering reg found rest :=
  ⟨hg.distinct, fun n hn x hx m hm => mem_of_again h (hg.followed n hn x hx m hm)⟩

/-- A name that is not declared leads nowhere. -/
theorem unknown (hg : Gathering reg found (name :: rest)) (h : classKey name ∉ found.map classKey)
    (hname : reg.find? name = none) : Gathering reg (found ++ [name]) rest := by
  refine ⟨hg.distinct_append h, fun n hn x hx m hm => ?_⟩
  rcases List.mem_append.1 hn with hn | hn
  · rw [List.append_assoc]
    exact hg.followed n hn x hx m hm
  · rw [List.mem_singleton.1 hn, hname] at hx
    cases hx

/-- A declaration that is met brings along everything that it leads to. -/
theorem follow (hg : Gathering reg found (name :: rest)) (h : classKey name ∉ found.map classKey)
    {x : reg.Entry} (hname : reg.find? name = some x) :
    Gathering reg (found ++ [name]) (nearInterfaces reg x.1 ++ rest) := by
  refine ⟨hg.distinct_append h, fun n hn y hy m hm => ?_⟩
  rcases List.mem_append.1 hn with hn | hn
  · have hold := hg.followed n hn y hy m hm
    rw [List.map_append, List.mem_append, List.map_cons, List.mem_cons] at hold
    simp only [List.map_append, List.mem_append, List.map_singleton, List.mem_singleton]
    rcases hold with hold | hold | hold
    · exact .inl (.inl hold)
    · exact .inl (.inr hold)
    · exact .inr (.inr hold)
  · rw [List.mem_singleton.1 hn] at hy
    obtain rfl := Option.some.inj (hname.symm.trans hy)
    exact List.mem_map_of_mem (List.mem_append_right _ (List.mem_append_left _ hm))

end Gathering

/-- **Gathering keeps its invariant to the end**, when nothing is left to be looked at. -/
theorem Gathering.closeInterfaces {found todo : List String} (h : Gathering reg found todo) :
    Gathering reg (closeInterfaces reg found todo) [] := by
  fun_induction Hierarchy.closeInterfaces reg found todo with
  | case1 found => exact h
  | case2 found name rest hmem ih => exact ih (h.again hmem)
  | case3 found name rest hmem hname _ ih => exact ih (h.unknown hmem hname)
  | case4 found name rest hmem x hname _ ih => exact ih (h.follow hmem hname)

/-- Every name that was to be looked at is found. -/
theorem classKey_mem_closeInterfaces {found todo : List String} {name : String}
    (h : name ∈ found ++ todo) :
    classKey name ∈ (closeInterfaces reg found todo).map classKey := by
  replace h : classKey name ∈ (found ++ todo).map classKey := List.mem_map_of_mem h
  fun_induction closeInterfaces reg found todo with
  | case1 found => rwa [List.append_nil] at h
  | case2 found n rest hmem ih => exact ih (Gathering.mem_of_again hmem h)
  | case3 found n rest hmem hnone _ ih =>
    refine ih ?_
    rwa [List.append_assoc]
  | case4 found n rest hmem x hx _ ih =>
    refine ih ?_
    rw [List.map_append, List.mem_append, List.map_cons, List.mem_cons] at h
    simp only [List.map_append, List.mem_append, List.map_singleton, List.mem_singleton]
    rcases h with h | h | h
    · exact .inl (.inl h)
    · exact .inl (.inr h)
    · exact .inr (.inr h)

/-- What is found belongs to every set that has the names at the start and is closed. -/
theorem closeInterfaces_sound {P : String → Prop}
    (hclosed : ∀ name x, P name → reg.find? name = some x →
      ∀ m ∈ nearInterfaces reg x.1, P m)
    {found todo : List String} (hfound : ∀ n ∈ found, P n) (htodo : ∀ n ∈ todo, P n) :
    ∀ n ∈ closeInterfaces reg found todo, P n := by
  fun_induction closeInterfaces reg found todo with
  | case1 found => exact hfound
  | case2 found name rest hmem ih =>
    exact ih hfound fun n hn => htodo n (List.mem_cons_of_mem name hn)
  | case3 found name rest hmem hname _ ih =>
    obtain ⟨hhead, hrest⟩ := List.forall_mem_cons.1 htodo
    exact ih (List.forall_mem_append.2 ⟨hfound, by simpa using hhead⟩) hrest
  | case4 found name rest hmem x hname _ ih =>
    obtain ⟨hhead, hrest⟩ := List.forall_mem_cons.1 htodo
    exact ih (List.forall_mem_append.2 ⟨hfound, by simpa using hhead⟩)
      (List.forall_mem_append.2 ⟨hclosed name x hhead hname, hrest⟩)

theorem hasInterface_of_mem_interfaceNames {e : reg.Entry} {name : String}
    (h : name ∈ interfaceNames reg e.1) : HasInterface e name := by
  refine closeInterfaces_sound (P := HasInterface e) ?_ (by simp) ?_ name h
  · exact fun n x hn hx m hm => .further hn hx (mem_nearInterfaces.1 hm)
  · exact fun n hn => .near (mem_nearInterfaces.1 hn)

theorem gathering_interfaceNames (e : reg.Entry) : Gathering reg (interfaceNames reg e.1) [] :=
  Gathering.closeInterfaces ⟨List.nodup_nil, by simp⟩

theorem classKey_eq_of_lower_eq {name name' : String} (h : lower name = lower name') :
    classKey name = classKey name' := by
  rw [Registry.classKey_eq_dropWhile, Registry.classKey_eq_dropWhile, h]

/-- **Gathering is complete**, by induction over the least set. -/
theorem classKey_mem_of_hasInterface {e : reg.Entry} {name : String} (h : HasInterface e name) :
    classKey name ∈ (interfaceNames reg e.1).map classKey := by
  induction h with
  | near h => exact classKey_mem_closeInterfaces (mem_nearInterfaces.2 h)
  | @further name more x _ hname hmore ih =>
    obtain ⟨n, hn, hkey⟩ := List.mem_map.1 ih
    have hfind : reg.find? n = some x := by rwa [Registry.find?, hkey]
    simpa using (gathering_interfaceNames e).followed n hn x hfind more (mem_nearInterfaces.2 hmore)
  | sameName _ hsame ih => rwa [← classKey_eq_of_lower_eq hsame]

/-! ### Names without a separator in front -/

theorem beginsName_of_mem_declaredInterfaces {e : ClassEntry} (he : e.WellFormed)
    (hspelled : e.decl.Spelled) {name : String} (h : name ∈ declaredInterfaces e) :
    beginsName name := by
  unfold declaredInterfaces at h
  split at h
  · obtain ⟨n, hn, rfl⟩ := List.mem_map.1 h
    exact Registry.beginsName_resolve he (hspelled.implements n hn)
  · obtain ⟨n, hn, rfl⟩ := List.mem_map.1 h
    exact Registry.beginsName_resolve he (hspelled.implements n hn)
  · obtain ⟨n, hn, rfl⟩ := List.mem_map.1 h
    exact Registry.beginsName_resolve he (hspelled.parents n hn)
  · cases h

theorem beginsName_of_mem_directInterfaces {e : ClassEntry} (he : e.WellFormed)
    (hspelled : e.decl.Spelled) {name : String} (h : name ∈ directInterfaces e) :
    beginsName name := by
  rcases List.mem_append.1 h with h | h
  · exact beginsName_of_mem_declaredInterfaces he hspelled h
  · have hnames : name = "UnitEnum" ∨ name = "BackedEnum" := by
      split at h
      · rcases List.mem_cons.1 h with h | h
        · exact .inl h
        · split at h
          · exact .inr (List.mem_singleton.1 h)
          · cases h
      · cases h
    rcases hnames with rfl | rfl <;> decide

/-- In a registry of sources, a name that is given is its own key, up to capital letters. -/
theorem classKey_of_hasInterface (hspelled : ∀ e : reg.Entry, e.1.decl.Spelled) {e : reg.Entry}
    {name : String} (h : HasInterface e name) : classKey name = lower name := by
  have given : ∀ {x : reg.Entry} {n : String}, Gives x n → beginsName n := by
    rintro x n (hdirect | ⟨a, -, hdeclared⟩)
    · exact beginsName_of_mem_directInterfaces (reg.formed x.1 x.2) (hspelled x) hdirect
    · exact beginsName_of_mem_declaredInterfaces (reg.formed a.1 a.2) (hspelled a) hdeclared
  induction h with
  | near h => exact Registry.classKey_of_beginsName (given h)
  | further _ _ hmore _ => exact Registry.classKey_of_beginsName (given hmore)
  | sameName _ hsame ih => rw [← classKey_eq_of_lower_eq hsame, ih, hsame]

/-- **The interfaces of a declaration are the least set** of names with those that it gives and
those that a registered interface among them gives.  In a registry of any sources, whatever cycles
parents and interfaces form, gathering finds the names of this set, in capital or small letters, and
no others, and finds none of them twice. -/
theorem interfaceNames_eq_closure (submissions : List Submission)
    (e : (Registry.registerAll submissions).Entry) :
    ((interfaceNames (Registry.registerAll submissions) e.1).map lower).Nodup ∧
      ∀ name, HasInterface e name ↔
        ∃ n ∈ interfaceNames (Registry.registerAll submissions) e.1, lower n = lower name := by
  have hspelled : ∀ x : (Registry.registerAll submissions).Entry, x.1.decl.Spelled :=
    fun x => Registry.spelled_of_mem_registerAll x.2
  have hkey := @classKey_of_hasInterface _ hspelled e
  have hmap : (interfaceNames (Registry.registerAll submissions) e.1).map lower
      = (interfaceNames (Registry.registerAll submissions) e.1).map classKey :=
    List.map_congr_left fun n hn => (hkey (hasInterface_of_mem_interfaceNames hn)).symm
  refine ⟨hmap ▸ (gathering_interfaceNames e).distinct, fun name => ⟨fun h => ?_, ?_⟩⟩
  · have hmem := classKey_mem_of_hasInterface h
    rw [hkey h, ← hmap] at hmem
    exact List.mem_map.1 hmem
  · rintro ⟨n, hn, hsame⟩
    exact .sameName (hasInterface_of_mem_interfaceNames hn) hsame

end PhpHandbook.Hierarchy
