import PhpHandbook.Proofs.Numbering

/-!
# Registering source after source

A registry is filled one source at a time.  A source with faults answers with them and changes
nothing; any other source answers with the names of the declarations that it has added at the end.
Of several declarations of one name the first stays, wherever the others stand: in the same file, in
another block of it, or in a later source.

What is found under a name is a matter of the whole history.  The declarations of all sources
without faults, one source after the other, are the list that a registry is a part of, and the first
one of a name in that list is the one that the registry finds.

## Main definitions

* `Submission`: a source that is given to a registry.
* `Registry.submit`: what a registry answers to a source, and what becomes of it.
* `Registry.registerAll`: the registry that a sequence of sources leaves behind.
* `declaredBy`: the declarations of a sequence of sources.

## Main statements

* `submit_spec`: what one source adds, as a step.
* `find?_registerAll`: lookup over a whole history, by induction over the sources.
* `registerAll_keeps_first`: both together, with the names of what is registered.
-/

namespace PhpHandbook

open Registry (ClassEntry Origin classKey lower unrooted)
open Declaration (Fault SourceFile)

/-- A source that is given to a registry. -/
structure Submission where
  /-- The path that its declarations are registered with. -/
  path : String
  /-- The text. -/
  source : String
  origin : Origin

/-- The declarations of a source in their order; a source with faults has none. -/
def Submission.declared (s : Submission) : List ClassEntry :=
  match (Declaration.parse s.source.toList).outcome with
  | .ok file => Registry.entriesOf s.path s.origin file
  | .error _ => []

/-- **The declarations of a sequence of sources**, of which one name may have many. -/
def declaredBy (submissions : List Submission) : List ClassEntry :=
  submissions.flatMap (·.declared)

namespace Registry

/-- **What a registry answers to a source**, the names that it has added or the faults of the
source, and the registry afterwards. -/
def submit (reg : Registry) (s : Submission) : Except (List Fault) (List String) × Registry :=
  match reg.register s.path s.source s.origin with
  | .ok (names, reg) => (.ok names, reg)
  | .error faults => (.error faults, reg)

/-- **The registry of a sequence of sources.** -/
def registerAll (submissions : List Submission) : Registry :=
  submissions.foldl (fun reg s => (reg.submit s).2) empty

/-! ### Adding declarations -/

variable {reg : Registry}

/-- The first declaration of a list with the given key. -/
def firstOf (key : String) (entries : List ClassEntry) : Option ClassEntry :=
  entries.find? (·.key == key)

theorem firstOf_append (key : String) (before after : List ClassEntry) :
    firstOf key (before ++ after) = (firstOf key before).or (firstOf key after) :=
  List.find?_append

/-- A declaration behind another one of its key is never the first. -/
theorem firstOf_append_cons {before : List ClassEntry} {e : ClassEntry}
    (htaken : (firstOf e.key before).isSome) (key : String) (after : List ClassEntry) :
    firstOf key (before ++ e :: after) = firstOf key (before ++ after) := by
  rw [firstOf_append, firstOf_append]
  by_cases hkey : e.key = key
  · obtain ⟨first, hfirst⟩ := Option.isSome_iff_exists.1 htaken
    rw [← hkey, hfirst, Option.some_or, Option.some_or]
  · rw [firstOf, firstOf, firstOf, List.find?_cons_of_neg (by simpa using hkey)]

theorem map_val_findKey? (reg : Registry) (key : String) :
    (reg.findKey? key).map (·.1) = firstOf key reg.entries := by
  rw [firstOf]
  unfold findKey?
  split
  · next e he => exact he.symm
  · next hnone => exact hnone.symm

theorem isSome_findKey? (reg : Registry) (key : String) :
    (reg.findKey? key).isSome = (firstOf key reg.entries).isSome := by
  rw [← map_val_findKey?, Option.isSome_map]

/-- A declaration whose key is free goes to the end. -/
theorem entries_add {e : ClassEntry} (he : e.WellFormed) (hfree : reg.findKey? e.key = none) :
    (reg.add e he).entries = reg.entries ++ [e] := by
  unfold add
  split
  · next h => exact absurd (h.symm.trans hfree) (by simp)
  · rfl

/-- **Adding declarations** takes some of them, in their order, to the end, and gives their names.
Which they are is seen in what is found: the first of each key in all that was there or is new. -/
theorem addAll_spec (es : List ClassEntry) (reg : Registry) (h : ∀ e ∈ es, e.WellFormed) :
    ∃ added, added.Sublist es ∧ (reg.addAll es h).1 = added.map (·.name) ∧
      (reg.addAll es h).2.entries = reg.entries ++ added ∧
      ∀ key, firstOf key (reg.entries ++ added) = firstOf key (reg.entries ++ es) := by
  induction es generalizing reg with
  | nil => exact ⟨[], List.Sublist.refl _, rfl, (List.append_nil _).symm, fun _ => rfl⟩
  | cons e es ih =>
    have hes : ∀ x ∈ es, x.WellFormed := fun x hx => h x (List.mem_cons_of_mem e hx)
    rw [addAll]
    by_cases htaken : (reg.findKey? e.key).isSome
    · obtain ⟨added, hsub, hnames, hentries, hfirst⟩ := ih reg hes
      rw [if_pos htaken]
      refine ⟨added, hsub.cons e, hnames, hentries, fun key => ?_⟩
      rw [hfirst, firstOf_append_cons (by rwa [← isSome_findKey?])]
    · obtain ⟨added, hsub, hnames, hentries, hfirst⟩ :=
        ih (reg.add e (h e List.mem_cons_self)) hes
      have hadd := entries_add (h e List.mem_cons_self) (Option.not_isSome_iff_eq_none.1 htaken)
      rw [if_neg htaken]
      rw [hadd, List.append_assoc, List.singleton_append] at hentries
      refine ⟨e :: added, hsub.cons_cons e, congrArg (e.name :: ·) hnames, hentries,
        fun key => ?_⟩
      simpa [hadd] using hfirst key

/-! ### Single sources -/

theorem register_of_error {path source : String} {faults : List Fault}
    (h : (Declaration.parse source.toList).outcome = .error faults) (reg : Registry)
    (origin : Origin) :
    reg.register path source origin = .error faults := by
  unfold register
  split
  · next hfile => cases hfile.symm.trans h
  · next hfaults =>
    cases hfaults.symm.trans h
    rfl

theorem register_of_ok {path source : String} {file : SourceFile}
    (h : (Declaration.parse source.toList).outcome = .ok file) (reg : Registry) (origin : Origin) :
    reg.register path source origin = .ok (reg.addAll (entriesOf path origin file)
      (entriesOf_wellFormed (Declaration.parse_named h))) := by
  unfold register
  split
  · next hfile =>
    cases hfile.symm.trans h
    rfl
  · next hfaults => cases hfaults.symm.trans h

/-- A source with faults answers with them and changes nothing. -/
theorem submit_of_error {s : Submission} {faults : List Fault}
    (h : (Declaration.parse s.source.toList).outcome = .error faults) (reg : Registry) :
    reg.submit s = (.error faults, reg) := by
  rw [submit, register_of_error h]

/-- A source without faults has some of its declarations added. -/
theorem submit_of_ok {s : Submission} {file : SourceFile}
    (h : (Declaration.parse s.source.toList).outcome = .ok file) (reg : Registry) :
    ∃ added, added.Sublist (entriesOf s.path s.origin file) ∧
      (reg.submit s).1 = .ok (added.map (·.name)) ∧
      (reg.submit s).2.entries = reg.entries ++ added ∧
      ∀ key, firstOf key (reg.entries ++ added) = firstOf key (reg.entries ++ s.declared) := by
  obtain ⟨added, hsub, hnames, hentries, hfirst⟩ :=
    addAll_spec (entriesOf s.path s.origin file) reg
      (entriesOf_wellFormed (Declaration.parse_named h))
  rw [submit, register_of_ok h]
  refine ⟨added, hsub, congrArg _ hnames, hentries, fun key => ?_⟩
  rw [hfirst, Submission.declared, h]

/-- **A step of registration**: nothing that is there goes away, and what is found is the first of
what was there and what the source declares. -/
theorem submit_spec (reg : Registry) (s : Submission) :
    reg.entries <+: (reg.submit s).2.entries ∧
      ∀ key, firstOf key (reg.submit s).2.entries = firstOf key (reg.entries ++ s.declared) := by
  cases houtcome : (Declaration.parse s.source.toList).outcome with
  | error faults =>
    rw [submit_of_error houtcome, Submission.declared, houtcome, List.append_nil]
    exact ⟨List.prefix_rfl, fun _ => rfl⟩
  | ok file =>
    obtain ⟨added, -, -, hentries, hfirst⟩ := submit_of_ok houtcome reg
    rw [hentries]
    exact ⟨List.prefix_append _ _, hfirst⟩

/-! ### Sequences of sources -/

/-- A sequence of sources keeps the declarations in front. -/
theorem entries_prefix_foldl_submit (submissions : List Submission) (reg : Registry) :
    reg.entries <+: (submissions.foldl (fun reg s => (reg.submit s).2) reg).entries := by
  induction submissions generalizing reg with
  | nil => exact List.prefix_rfl
  | cons s submissions ih => exact (reg.submit_spec s).1.trans (ih (reg.submit s).2)

/-- What is found after a sequence of sources. -/
theorem firstOf_foldl_submit (submissions : List Submission) (reg : Registry) (key : String) :
    firstOf key (submissions.foldl (fun reg s => (reg.submit s).2) reg).entries
      = firstOf key (reg.entries ++ declaredBy submissions) := by
  induction submissions generalizing reg with
  | nil => rw [declaredBy, List.flatMap_nil, List.append_nil, List.foldl_nil]
  | cons s submissions ih =>
    rw [List.foldl_cons, ih, firstOf_append, (reg.submit_spec s).2, ← firstOf_append,
      List.append_assoc]
    rfl

/-- **Lookup over a whole history**: under any name a registry finds the first declaration of that
name in all of its sources. -/
theorem find?_registerAll (submissions : List Submission) (name : String) :
    ((registerAll submissions).find? name).map (·.1)
      = firstOf (classKey name) (declaredBy submissions) := by
  rw [find?, map_val_findKey?, registerAll, firstOf_foldl_submit]
  rfl

/-! ### Spellings -/

theorem toLower_beq_separator (c : Char) : (c.toLower == '\\') = (c == '\\') := by
  by_cases h : c = '\\'
  · rw [h]
    rfl
  · rw [beq_eq_false_iff_ne.2 h, beq_eq_false_iff_ne]
    intro hlower
    unfold Char.toLower at hlower
    split at hlower
    · next hcapital =>
      -- the small letters lie behind the separator
      have hval : c.val + 32 = '\\'.val := congrArg Char.val hlower
      have hnat : (c.val.toNat + 32) % 2 ^ 32 = 92 := congrArg UInt32.toNat hval
      have hfirst : 65 ≤ c.val.toNat := UInt32.le_iff_toNat_le.1 hcapital.1
      have hlast : c.val.toNat ≤ 90 := UInt32.le_iff_toNat_le.1 hcapital.2
      omega
    · exact h hlower

/-- The key of a name is its form in small letters without the separators in front. -/
theorem classKey_eq_dropWhile (name : String) :
    classKey name = String.ofList ((lower name).toList.dropWhile (· == '\\')) := by
  have hsame : ((· == '\\') ∘ Char.toLower) = (· == '\\') := funext toLower_beq_separator
  rw [classKey, unrooted, ← String.toList_inj, lower, lower, String.toList_map, String.toList_map,
    String.toList_ofList, String.toList_ofList, List.dropWhile_map, hsame]

/-- **Spellings of a name**: neither the letters nor the number of separators in front matter. -/
theorem classKey_replicate_append (n : Nat) {text name : String} (htext : lower text = lower name) :
    classKey (String.ofList (List.replicate n '\\') ++ text) = classKey name := by
  have hslashes : ∀ c ∈ List.replicate n '\\', (c == '\\') = true := fun c hc =>
    beq_iff_eq.2 (List.eq_of_mem_replicate hc)
  have hunrooted : unrooted (String.ofList (List.replicate n '\\') ++ text) = unrooted text := by
    rw [unrooted, unrooted, String.toList_append, String.toList_ofList,
      List.dropWhile_append_of_pos hslashes]
  have hkey : classKey text = classKey name := by
    rw [classKey_eq_dropWhile, classKey_eq_dropWhile, htext]
  rw [classKey, hunrooted]
  exact hkey

/-! ### The whole history -/

/-- **The first declaration of a name stays.**  After any sequence of sources, a source with faults
answers with them and leaves the registry as it is; any other source answers with the names of some
of its declarations, in their order, which are added at the end.  So whatever sources follow, the
declarations in front remain.  Under every spelling of a name the registry finds the first
declaration of that name in all sources without faults, and nothing where there is none.  Every
declaration is named after its namespace and its own name, and found under its name in small
letters. -/
theorem registerAll_keeps_first (submissions : List Submission) :
    let reg := registerAll submissions
    (∀ s, registerAll (submissions ++ [s]) = (reg.submit s).2 ∧
      (∀ faults, (Declaration.parse s.source.toList).outcome = .error faults →
        reg.submit s = (.error faults, reg)) ∧
      ∀ file, (Declaration.parse s.source.toList).outcome = .ok file →
        ∃ added, added.Sublist (entriesOf s.path s.origin file) ∧
          (reg.submit s).1 = .ok (added.map (·.name)) ∧
          (reg.submit s).2.entries = reg.entries ++ added) ∧
    (∀ more, reg.entries <+: (registerAll (submissions ++ more)).entries) ∧
    (∀ name text n, lower text = lower name →
      (reg.find? (String.ofList (List.replicate n '\\') ++ text)).map (·.1)
        = (declaredBy submissions).find? fun e => e.key == classKey name) ∧
    ∀ e : reg.Entry,
      e.1.name = (if e.1.space.isEmpty then e.1.decl.name.name
        else e.1.space ++ "\\" ++ e.1.decl.name.name) ∧
      reg.findKey? (lower e.1.name) = some e := by
  intro reg
  refine ⟨fun s => ⟨?_, ?_, ?_⟩, ?_, ?_, ?_⟩
  · exact List.foldl_append
  · exact fun faults h => submit_of_error h reg
  · intro file h
    obtain ⟨added, hsub, hnames, hentries, -⟩ := submit_of_ok h reg
    exact ⟨added, hsub, hnames, hentries⟩
  · intro more
    rw [registerAll, List.foldl_append]
    exact entries_prefix_foldl_submit more reg
  · intro name text n htext
    rw [find?_registerAll, classKey_replicate_append n htext]
    rfl
  · intro e
    have hformed := reg.formed e.1 e.2
    constructor
    · rw [hformed.name_eq, hformed.space_eq, Scope.qualify]
      rfl
    · have hfind := find?_name e
      rwa [find?, hformed.classKey_name] at hfind

end Registry

end PhpHandbook
