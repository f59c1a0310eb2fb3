import PhpHandbook.Hierarchy.Members

/-!
# Walks through the hierarchy end

Declarations may form cycles of every sort: a class that extends itself through others, traits that
use each other, a class that is named as an interface.  Every question about the hierarchy is
answered all the same.

`collectFrom` and `closeInterfaces` are functions, so they have an answer by their very form; what
they keep of a walk is that its path grows on the way down.  Here a walk is told as it happens,
with one path that a declaration is put on and taken off again (`Walk`), with a climb along the
parents that has a path of its own (`Climb`), and with one list of names that everything met so far
goes into (`Meet`).  None of these relations says that it comes to an end, or that a path is back to
what it was when the next declaration is asked.  Both follow, and the answers are those of the
functions.

## Main definitions

* `Walk`, `WalkAll`: collecting members with a path that is passed from call to call.
* `Walk.Call`: a call that another call makes.
* `Climb`: going from parent to parent.
* `Meet`, `Meet.Call`: gathering interfaces with the names met so far.
* `unseen`: how many declared names have not been met.

## Main statements

* `walk_iff`: a walk has exactly one outcome, and gives its path back.
* `climb_iff`, `meet_iff`: so do climbs, and gathering interfaces.
* `Walk.Call.unvisited_lt`, `Meet.Call.unseen_lt`: what goes down from call to call.
* `hierarchy_queries_end`: all of this for methods, properties, constants and interfaces.
-/

namespace PhpHandbook.Hierarchy

open Registry (ClassEntry classKey)

variable {reg : Registry} {α : Type}

/-! ### Collecting members -/

/-- The members of a declaration, made of its own ones and of what the declarations next to it gave:
its traits, its parent, and its interfaces. -/
def MemberRules.combine (rules : MemberRules reg α) (e : reg.Entry)
    (fromTraits fromParent fromInterfaces : List (List α)) : List α :=
  keepFirst rules.key <|
    rules.own e
      ++ (List.zipWith (rules.fromTrait e) (traits reg e.1) fromTraits).flatten
      ++ fromParent.flatMap (·.filter rules.isInherited)
      ++ fromInterfaces.flatten

mutual

/-- **A walk as it happens**: asked for the members of a declaration with the keys of `path` on the
path, it gives `members` and leaves `path'`. -/
inductive Walk (rules : MemberRules reg α) :
    (path : List String) → (e : reg.Entry) → (members : List α) →
    (path' : List String) → Prop where
  /-- A declaration on the path gives nothing. -/
  | onPath {path : List String} {e : reg.Entry} (h : e.1.key ∈ path) : Walk rules path e [] path
  /-- Any other one goes on the path, asks those next to it, and is taken off again. -/
  | enter {path path₁ path₂ path₃ : List String} {e : reg.Entry}
      {fromTraits fromParent fromInterfaces : List (List α)} (h : e.1.key ∉ path)
      (hTraits : WalkAll rules (e.1.key :: path) (traits reg e.1) fromTraits path₁)
      (hParent : WalkAll rules path₁ (parent? reg e.1).toList fromParent path₂)
      (hInterfaces : WalkAll rules path₂ (rules.interfaces e) fromInterfaces path₃) :
      Walk rules path e (rules.combine e fromTraits fromParent fromInterfaces) path₃.tail

/-- Walks one after the other, each with the path that the one before it left. -/
inductive WalkAll (rules : MemberRules reg α) :
    (path : List String) → (es : List reg.Entry) → (members : List (List α)) →
      (path' : List String) → Prop where
  | nil {path : List String} : WalkAll rules path [] [] path
  | cons {path path₁ path₂ : List String} {e : reg.Entry} {es : List reg.Entry}
      {members : List α} {more : List (List α)} (h : Walk rules path e members path₁)
      (hs : WalkAll rules path₁ es more path₂) :
      WalkAll rules path (e :: es) (members :: more) path₂

end

/-- **A call within a call**: the walk to `e` along `path` asks `d` with `path'` on the path, after
it has asked those in front of `d`. -/
inductive Walk.Call (rules : MemberRules reg α) (path : List String) (e : reg.Entry)
    (path' : List String) (d : reg.Entry) : Prop where
  | mk {before after : List reg.Entry} {members : List (List α)} (h : e.1.key ∉ path)
      (hasked : traits reg e.1 ++ (parent? reg e.1).toList ++ rules.interfaces e
        = before ++ d :: after)
      (hbefore : WalkAll rules (e.1.key :: path) before members path')

/-- If every walk with this path has one outcome and gives the path back, so do several. -/
theorem walkAll_iff {rules : MemberRules reg α} {path : List String}
    (h : ∀ e members path', Walk rules path e members path'
      ↔ members = collectFrom rules path e ∧ path' = path)
    (es : List reg.Entry) (members : List (List α)) (path' : List String) :
    WalkAll rules path es members path'
      ↔ members = es.map (collectFrom rules path) ∧ path' = path := by
  induction es generalizing members with
  | nil =>
    constructor
    · rintro ⟨⟩
      exact ⟨rfl, rfl⟩
    · rintro ⟨rfl, rfl⟩
      exact .nil
  | cons e es ih =>
    constructor
    · rintro (_ | ⟨hwalk, hmore⟩)
      obtain ⟨rfl, rfl⟩ := (h _ _ _).1 hwalk
      obtain ⟨rfl, rfl⟩ := (ih _).1 hmore
      exact ⟨rfl, rfl⟩
    · rintro ⟨rfl, rfl⟩
      exact .cons ((h _ _ _).2 ⟨rfl, rfl⟩) ((ih _).2 ⟨rfl, rfl⟩)

theorem collectFrom_of_mem (rules : MemberRules reg α) {path : List String} {e : reg.Entry}
    (h : e.1.key ∈ path) : collectFrom rules path e = [] := by
  rw [collectFrom, dif_pos h]

/-- What a declaration gives is made of what those next to it give. -/
theorem collectFrom_eq_combine (rules : MemberRules reg α) {path : List String} {e : reg.Entry}
    (h : e.1.key ∉ path) :
    collectFrom rules path e
      = rules.combine e ((traits reg e.1).map (collectFrom rules (e.1.key :: path)))
        ((parent? reg e.1).toList.map (collectFrom rules (e.1.key :: path)))
        ((rules.interfaces e).map (collectFrom rules (e.1.key :: path))) := by
  rw [collectFrom, dif_neg h, MemberRules.combine, List.zipWith_map_right, List.zipWith_self,
    List.flatMap_map]
  simp only [List.flatMap_def]

/-- **A walk has exactly one outcome**: the members that `collectFrom` gives, and the path that it
started with. -/
theorem walk_iff (rules : MemberRules reg α) (path : List String) (e : reg.Entry)
    (members : List α) (path' : List String) :
    Walk rules path e members path' ↔ members = collectFrom rules path e ∧ path' = path := by
  by_cases h : e.1.key ∈ path
  · rw [collectFrom_of_mem rules h]
    constructor
    · rintro (_ | ⟨hoff, -, -, -⟩)
      · exact ⟨rfl, rfl⟩
      · exact absurd h hoff
    · rintro ⟨rfl, rfl⟩
      exact .onPath h
  · -- all calls within this one find the same path, because each gives it back
    have hall := walkAll_iff fun d => walk_iff rules (e.1.key :: path) d
    rw [collectFrom_eq_combine rules h]
    constructor
    · rintro (hon | ⟨-, hTraits, hParent, hInterfaces⟩)
      · exact absurd hon h
      · obtain ⟨rfl, rfl⟩ := (hall _ _ _).1 hTraits
        obtain ⟨rfl, rfl⟩ := (hall _ _ _).1 hParent
        obtain ⟨rfl, rfl⟩ := (hall _ _ _).1 hInterfaces
        exact ⟨rfl, rfl⟩
    · rintro ⟨rfl, rfl⟩
      exact .enter h ((hall _ _ _).2 ⟨rfl, rfl⟩) ((hall _ _ _).2 ⟨rfl, rfl⟩)
        ((hall _ _ _).2 ⟨rfl, rfl⟩)
termination_by reg.unvisited path
decreasing_by exact Registry.unvisited_cons_lt e.2 h

/-- **A call leaves fewer declarations off its path.** -/
theorem Walk.Call.unvisited_lt {rules : MemberRules reg α} {path path' : List String}
    {e d : reg.Entry} (h : Walk.Call rules path e path' d) :
    reg.unvisited path' < reg.unvisited path := by
  obtain ⟨hoff, -, hbefore⟩ := h
  obtain ⟨-, rfl⟩ := (walkAll_iff (walk_iff rules _) _ _ _).1 hbefore
  exact Registry.unvisited_cons_lt e.2 hoff

/-! ### Climbing -/

/-- **A climb as it happens**: from parent to parent, as far as they are not on the path. -/
inductive Climb (reg : Registry) :
    (path : List String) → (e : ClassEntry) → (ancestors : List reg.Entry) → Prop where
  /-- There is no parent. -/
  | top {path : List String} {e : ClassEntry} (h : parent? reg e = none) : Climb reg path e []
  /-- The parent is on the path. -/
  | back {path : List String} {e : ClassEntry} {p : reg.Entry} (h : parent? reg e = some p)
      (hon : p.1.key ∈ path) : Climb reg path e []
  /-- The parent goes on the path, and the climb goes on from there. -/
  | step {path : List String} {e : ClassEntry} {p : reg.Entry} {ancestors : List reg.Entry}
      (h : parent? reg e = some p) (hoff : p.1.key ∉ path)
      (hmore : Climb reg (p.1.key :: path) p.1 ancestors) : Climb reg path e (p :: ancestors)

/-- **A climb has exactly one outcome.** -/
theorem climb_iff (path : List String) (e : ClassEntry) (ancestors : List reg.Entry) :
    Climb reg path e ancestors ↔ ancestors = ancestorsFrom reg path e := by
  fun_induction ancestorsFrom reg path e generalizing ancestors with
  | case1 path e hnone =>
    constructor
    · rintro (_ | ⟨h, -⟩ | ⟨h, -, -⟩)
      · rfl
      · exact absurd (h.symm.trans hnone) (by simp)
      · exact absurd (h.symm.trans hnone) (by simp)
    · rintro rfl
      exact .top hnone
  | case2 path e p hp hon =>
    constructor
    · rintro (_ | ⟨h, -⟩ | ⟨h, hoff, -⟩)
      · rfl
      · rfl
      · obtain rfl := Option.some.inj (h.symm.trans hp)
        exact absurd hon hoff
    · rintro rfl
      exact .back hp hon
  | case3 path e p hp hoff ih =>
    constructor
    · rintro (h | ⟨h, hon⟩ | ⟨h, -, hmore⟩)
      · exact absurd (h.symm.trans hp) (by simp)
      · obtain rfl := Option.some.inj (h.symm.trans hp)
        exact absurd hon hoff
      · obtain rfl := Option.some.inj (h.symm.trans hp)
        rw [(ih _).1 hmore]
    · rintro rfl
      exact .step hp hoff ((ih _).2 rfl)

/-! ### Gathering interfaces -/

/-- The names that a declaration is asked about when its interfaces are gathered: its own ones, and
those that the given ancestors declare. -/
def namesToMeet (e : ClassEntry) (ancestors : List reg.Entry) : List String :=
  directInterfaces e ++ ancestors.flatMap fun a => declaredInterfaces a.1

/-- **Gathering interfaces as it happens**: the names of `todo` are met one after the other, those
in `found` have been met before, and those in `found'` have been met at the end. -/
inductive Meet (reg : Registry) : (found todo found' : List String) → Prop where
  | nil {found : List String} : Meet reg found [] found
  /-- A name that has been met is passed over. -/
  | again {found found' rest : List String} {name : String}
      (h : classKey name ∈ found.map classKey) (hrest : Meet reg found rest found') :
      Meet reg found (name :: rest) found'
  /-- A name that is not declared leads nowhere. -/
  | unknown {found found' rest : List String} {name : String}
      (h : classKey name ∉ found.map classKey) (hname : reg.find? name = none)
      (hrest : Meet reg (found ++ [name]) rest found') : Meet reg found (name :: rest) found'
  /-- A declaration is asked for its own interfaces before the next name is met. -/
  | follow {found found₁ found' rest : List String} {name : String} {x : reg.Entry}
      {ancestors : List reg.Entry} (h : classKey name ∉ found.map classKey)
      (hname : reg.find? name = some x) (hclimb : Climb reg [x.1.key] x.1 ancestors)
      (hwithin : Meet reg (found ++ [name]) (namesToMeet x.1 ancestors) found₁)
      (hrest : Meet reg found₁ rest found') : Meet reg found (name :: rest) found'

/-- **A call within a call**: gathering the interfaces of `e` with the names of `found` met before
leads to `d`, with the names of `found'` met before. -/
inductive Meet.Call (found : List String) (e : reg.Entry) (found' : List String) (d : reg.Entry) :
    Prop where
  | mk {found₁ before after : List String} {name : String} {ancestors : List reg.Entry}
      (hclimb : Climb reg [e.1.key] e.1 ancestors)
      (hnames : namesToMeet e.1 ancestors = before ++ name :: after)
      (hbefore : Meet reg found before found₁) (h : classKey name ∉ found₁.map classKey)
      (hname : reg.find? name = some d) (hfound : found' = found₁ ++ [name])

theorem climb_ancestors_iff (e : ClassEntry) (climbed : List reg.Entry) :
    Climb reg [e.key] e climbed ↔ climbed = ancestors reg e :=
  climb_iff [e.key] e climbed

theorem namesToMeet_ancestors (e : ClassEntry) :
    namesToMeet e (ancestors reg e) = nearInterfaces reg e :=
  rfl

/-- What lies off a path lies off every part of it. -/
theorem unvisited_le_of_subset {path path' : List String} (h : path ⊆ path') :
    reg.unvisited path' ≤ reg.unvisited path := by
  refine List.countP_mono_left fun e _ he => ?_
  simp only [Bool.not_eq_true', List.contains_eq_mem, decide_eq_false_iff_not] at he ⊢
  exact fun hmem => he (h hmem)

theorem Meet.subset {found todo found' : List String} (h : Meet reg found todo found') :
    found ⊆ found' := by
  induction h with
  | nil => exact List.Subset.refl _
  | again _ _ ih => exact ih
  | unknown _ _ _ ih => exact List.Subset.trans (List.subset_append_left _ _) ih
  | follow _ _ _ _ _ ih₁ ih₂ => 
    exact List.Subset.trans (List.subset_append_left _ _) (List.Subset.trans ih₁ ih₂)

theorem closeInterfaces_of_mem {found : List String} {name : String} (rest : List String)
    (h : classKey name ∈ found.map classKey) :
    closeInterfaces reg found (name :: rest) = closeInterfaces reg found rest := by
  rw [closeInterfaces, dif_pos h]

theorem closeInterfaces_of_none {found : List String} {name : String} (rest : List String)
    (h : classKey name ∉ found.map classKey) (hname : reg.find? name = none) :
    closeInterfaces reg found (name :: rest) = closeInterfaces reg (found ++ [name]) rest := by
  rw [closeInterfaces, dif_neg h]
  split
  · rfl
  · next x hx => exact absurd (hx.symm.trans hname) (by simp)

theorem closeInterfaces_of_some {found : List String} {name : String} {x : reg.Entry}
    (rest : List String) (h : classKey name ∉ found.map classKey)
    (hname : reg.find? name = some x) :
    closeInterfaces reg found (name :: rest)
      = closeInterfaces reg (found ++ [name]) (nearInterfaces reg x.1 ++ rest) := by
  rw [closeInterfaces, dif_neg h]
  split
  · next hnone => exact absurd (hnone.symm.trans hname) (by simp)
  · next y hy =>
    obtain rfl := Option.some.inj (hy.symm.trans hname)
    rfl

/-- Names are met one after the other. -/
theorem closeInterfaces_append (found todo rest : List String) :
    closeInterfaces reg found (todo ++ rest)
      = closeInterfaces reg (closeInterfaces reg found todo) rest := by
  fun_induction closeInterfaces reg found todo with
  | case1 found => rfl
  | case2 found name todo h ih => rw [List.cons_append, closeInterfaces_of_mem _ h, ih]
  | case3 found name todo h hname _ ih =>
    rw [List.cons_append, closeInterfaces_of_none _ h hname, ih]
  | case4 found name todo h x hname _ ih =>
    rw [List.cons_append, closeInterfaces_of_some _ h hname, ← List.append_assoc, ih]

/-- Gathering comes to an end, with the names that `closeInterfaces` gives. -/
theorem meet_closeInterfaces (found todo : List String) :
    Meet reg found todo (closeInterfaces reg found todo) := by
  match todo with
  | [] =>
    rw [closeInterfaces]
    exact .nil
  | name :: rest =>
    by_cases h : classKey name ∈ found.map classKey
    · rw [closeInterfaces_of_mem rest h]
      exact .again h (meet_closeInterfaces found rest)
    · cases hname : reg.find? name with
      | none =>
        have hle := reg.unvisited_append_le (found.map classKey) (classKey name)
        rw [closeInterfaces_of_none rest h hname]
        exact .unknown h hname (meet_closeInterfaces (found ++ [name]) rest)
      | some x =>
        have hlt := Registry.unvisited_append_lt hname h
        have hwithin := meet_closeInterfaces (found ++ [name]) (nearInterfaces reg x.1)
        have hle := @unvisited_le_of_subset reg _ _ (List.map_subset classKey hwithin.subset)
        rw [closeInterfaces_of_some rest h hname, closeInterfaces_append]
        exact .follow h hname ((climb_ancestors_iff _ _).2 rfl) hwithin
          (meet_closeInterfaces _ rest)
termination_by (reg.unvisited (found.map classKey), todo.length)
decreasing_by
  · exact Prod.Lex.right _ (by simp)
  · rw [List.map_append]
    rcases Nat.lt_or_eq_of_le hle with hlt | heq
    · exact Prod.Lex.left _ _ hlt
    · exact heq ▸ Prod.Lex.right _ (by simp)
  · rw [List.map_append]
    exact Prod.Lex.left _ _ hlt
  · rw [List.map_append] at hle
    exact Prod.Lex.left _ _ (Nat.lt_of_le_of_lt hle hlt)

/-- The names that declarations give as interfaces. -/
def declaredNames (reg : Registry) : List String :=
  reg.entries.flatMap directInterfaces

/-- **The number of declared names that have not been met.** -/
def unseen (reg : Registry) (found : List String) : Nat :=
  (declaredNames reg).countP fun name => !(found.map classKey).contains (classKey name)

theorem unseen_le_of_subset {found found' : List String} (h : found ⊆ found') :
    unseen reg found' ≤ unseen reg found := by
  refine List.countP_mono_left fun name _ hname => ?_
  simp only [Bool.not_eq_true', List.contains_eq_mem, decide_eq_false_iff_not] at hname ⊢
  exact fun hmem => hname (List.map_subset classKey h hmem)

/-- Every name that a declaration is asked about is declared. -/
theorem namesToMeet_subset (e : reg.Entry) (ancestors : List reg.Entry) :
    namesToMeet e.1 ancestors ⊆ declaredNames reg := by
  intro name hname
  rcases List.mem_append.1 hname with hown | hinherited
  · exact List.mem_flatMap.2 ⟨e.1, e.2, hown⟩
  · obtain ⟨a, -, ha⟩ := List.mem_flatMap.1 hinherited
    exact List.mem_flatMap.2 ⟨a.1, a.2, List.mem_append_left _ ha⟩

/-- A declared name that is met for the first time is one less to meet. -/
theorem unseen_append_lt {found : List String} {name : String} (hname : name ∈ declaredNames reg)
    (h : classKey name ∉ found.map classKey) :
    unseen reg (found ++ [name]) < unseen reg found := by
  obtain ⟨before, after, hsplit⟩ := List.append_of_mem hname
  have hmono : ∀ names : List String,
      names.countP (fun n => !((found ++ [name]).map classKey).contains (classKey n))
        ≤ names.countP (fun n => !(found.map classKey).contains (classKey n)) := by
    intro names
    refine List.countP_mono_left fun n _ hn => ?_
    simp only [List.map_append, List.contains_eq_mem, List.mem_append, Bool.not_eq_true',
      decide_eq_false_iff_not, not_or] at hn ⊢
    exact hn.1
  have hbefore := hmono before
  have hafter := hmono after
  rw [unseen, unseen, hsplit, List.countP_append, List.countP_append,
    List.countP_cons_of_neg (by simp), List.countP_cons_of_pos (by simpa using h)]
  omega

/-- **Gathering has exactly one outcome.** -/
theorem meet_iff (found todo found' : List String) :
    Meet reg found todo found' ↔ found' = closeInterfaces reg found todo := by
  constructor
  · intro h
    induction h with
    | nil => rw [closeInterfaces]
    | again h _ ih => rw [closeInterfaces_of_mem _ h, ih]
    | unknown h hname _ ih => rw [closeInterfaces_of_none _ h hname, ih]
    | follow h hname hclimb _ _ ih₁ ih₂ =>
      rw [closeInterfaces_of_some _ h hname, closeInterfaces_append, ← namesToMeet_ancestors,
        ← (climb_ancestors_iff _ _).1 hclimb, ← ih₁, ih₂]
  · rintro rfl
    exact meet_closeInterfaces found todo

/-- A call leaves fewer declared names that have not been met. -/
theorem Meet.Call.unseen_lt {found found' : List String} {e d : reg.Entry}
    (h : Meet.Call found e found' d) : unseen reg found' < unseen reg found := by
  obtain ⟨hclimb, hnames, hbefore, hnew, -, rfl⟩ := h
  rename_i found₁ before after name climbed
  have hdeclared : name ∈ declaredNames reg :=
    namesToMeet_subset e climbed (hnames ▸ List.mem_append_right _ List.mem_cons_self)
  exact Nat.lt_of_lt_of_le (unseen_append_lt hdeclared hnew) (unseen_le_of_subset hbefore.subset)

/-! ### Every question is answered -/

/-- **Walks under these rules are orderly**: each call has exactly one outcome and gives back the
path that it received, and every call that it makes finds fewer declarations off the path. -/
structure MemberRules.Orderly (rules : MemberRules reg α) : Prop where
  outcome : ∀ path e members path',
    Walk rules path e members path' ↔ members = collectFrom rules path e ∧ path' = path
  descent : ∀ path e path' d,
    Walk.Call rules path e path' d → reg.unvisited path' < reg.unvisited path

theorem MemberRules.orderly (rules : MemberRules reg α) : rules.Orderly where
  outcome := walk_iff rules
  descent _ _ _ _ := Walk.Call.unvisited_lt

/-- **Every question about the hierarchy is answered**, whatever cycles declarations form.  Walks
for methods, properties and constants are orderly; started with an empty path, they end with an
empty path and give the members of the declaration.  The climb along the parents ends, and each
parent on it leaves fewer declarations off its path.  Gathering interfaces ends with the names of
all of them, and every call on the way finds fewer declared names that have not been met. -/
theorem hierarchy_queries_end (reg : Registry) (e : reg.Entry) :
    ((methodRules reg).Orderly ∧ Walk (methodRules reg) [] e (methods reg e) []) ∧
      ((propertyRules reg).Orderly ∧ Walk (propertyRules reg) [] e (properties reg e) []) ∧
      ((constantRules reg).Orderly ∧ Walk (constantRules reg) [] e (constants reg e) []) ∧
      (∀ climbed, Climb reg [e.1.key] e.1 climbed ↔ climbed = ancestors reg e.1) ∧
      (∀ (path : List String) (d p : reg.Entry), parent? reg d.1 = some p → p.1.key ∉ path →
        reg.unvisited (p.1.key :: path) < reg.unvisited path) ∧
      (∀ names, Meet reg [] (namesToMeet e.1 (ancestors reg e.1)) names
        ↔ names = interfaceNames reg e.1) ∧
      ∀ found found' (d : reg.Entry), Meet.Call found e found' d →
        unseen reg found' < unseen reg found := by
  refine ⟨⟨MemberRules.orderly _, ?_⟩, ⟨MemberRules.orderly _, ?_⟩,
    ⟨MemberRules.orderly _, ?_⟩, climb_ancestors_iff e.1, ?_, ?_, ?_⟩
  · exact (walk_iff _ _ _ _ _).2 ⟨rfl, rfl⟩
  · exact (walk_iff _ _ _ _ _).2 ⟨rfl, rfl⟩
  · exact (walk_iff _ _ _ _ _).2 ⟨rfl, rfl⟩
  · exact fun path d p _ hoff => Registry.unvisited_cons_lt p.2 hoff
  · exact meet_iff [] _
  · exact fun found found' d hcall => hcall.unseen_lt

end PhpHandbook.Hierarchy
