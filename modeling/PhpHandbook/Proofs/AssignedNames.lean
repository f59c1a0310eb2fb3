import PhpHandbook.Proofs.FileClasses
import PhpHandbook.Proofs.FollowingMembers

/-!
# Names that are assigned to

A constant, a case of an enum, a property and a parameter may have a value: an expression behind an
equals sign, which stands behind the name.  So wherever a declaration has a value, its span tells
where a name stopped that is assigned to, and this name was passed when the declaration was read.

## Main definitions

* `Gives`: what holds of a reading that succeeds.
* `Ended`: what an offset marks has been passed.
* `Members.assigned`: the names with a value.
* `readAssigned`: reads a name and its value.

## Main statements

* `readAssigned_gives`: the name of a value has been passed.
* `readConstants_gives`, `readCase_gives`, `readProperties_gives`, `readParams_gives`: the same of
  all declarations that may have values.
-/

namespace PhpHandbook.Declaration

open Source (Span TokenKind)

/-! ### What readers give -/

/-- What a reading gives and leaves, where it succeeds. -/
def Gives {ε α : Type} {ts : List Item} (r : Reading Item ε α ts)
    (P : α → List Item → Prop) : Prop :=
  ∀ a, r.outcome = .ok a → P a r.rest

section Gives

variable {ε α β : Type} {ts : List Item}

theorem Gives.map {r : Reading Item ε α ts} {f : α → β} {P : β → List Item → Prop}
    (h : Gives r fun a us => P (f a) us) : Gives (r.map f) P := by
  intro b hb
  obtain ⟨a, ha, rfl⟩ := Reading.outcome_map_eq_ok_iff.1 hb
  rw [Reading.rest_map]
  exact h a ha

theorem Gives.mapError {ε' : Type} {r : Reading Item ε α ts} {f : ε → ε'}
    {P : α → List Item → Prop} (h : Gives r P) : Gives (r.mapError f) P := by
  intro a ha
  rw [Reading.rest_mapError]
  exact h a (Reading.outcome_mapError_eq_ok_iff.1 ha)

theorem Gives.andThen {r : Reading Item ε α ts} {Q : α → List Item → Prop}
    {P : β → List Item → Prop}
    {next : α → (us : List Item) → us.length ≤ ts.length → Reading Item ε β us}
    (hr : Gives r Q) (h : ∀ a us le, us <:+ ts → Q a us → Gives (next a us le) P) :
    Gives (r.andThen next) P := by
  intro b hb
  obtain ⟨a, ha, hnext⟩ := Reading.outcome_andThen_eq_ok hb
  rw [Reading.andThen_of_ok ha]
  exact h a r.rest r.suffix.length_le r.suffix (hr a ha) b hnext

theorem gives_andThen {r : Reading Item ε α ts} {P : β → List Item → Prop}
    {next : α → (us : List Item) → us.length ≤ ts.length → Reading Item ε β us}
    (h : ∀ a us le, us <:+ ts → Gives (next a us le) P) : Gives (r.andThen next) P :=
  Gives.andThen (Q := fun _ _ => True) (fun _ _ => trivial) fun a us le hus _ => h a us le hus

/-- Branching, with what each branch knows about the next token. -/
theorem gives_onNext_cases {p : Item → Bool} {P : α → List Item → Prop}
    {yes : Item → (us : List Item) → us.length < ts.length → Reading Item ε α us}
    {no : Reading Item ε α ts}
    (hyes : ∀ t us lt, ts = t :: us → p t → Gives (yes t us lt) P)
    (hno : next p ts = false → Gives no P) : Gives (Reading.onNext p ts yes no) P := by
  cases ts with
  | nil => exact hno rfl
  | cons t us =>
    rw [Reading.onNext]
    split
    · next ht => exact hyes t us _ rfl ht
    · next ht => exact hno (by simpa [next] using ht)

theorem gives_onNext {p : Item → Bool} {P : α → List Item → Prop}
    {yes : Item → (us : List Item) → us.length < ts.length → Reading Item ε α us}
    {no : Reading Item ε α ts} (hyes : ∀ t us lt, us <:+ ts → Gives (yes t us lt) P)
    (hno : Gives no P) : Gives (Reading.onNext p ts yes no) P :=
  gives_onNext_cases (fun t us lt hts _ => hyes t us lt (hts ▸ List.suffix_cons t us))
    fun _ => hno

theorem gives_done {P : α → List Item → Prop} {a : α} (h : P a ts) :
    Gives (Reading.done a : Reading Item ε α ts) P := by
  intro b hb
  obtain rfl : a = b := Except.ok.inj hb
  exact h

end Gives

/-- **What `e` marks is among `ts`**, and what is left lies behind it. -/
structure Ended (ts rest : List Item) (e : Nat) : Prop where
  ahead : Ahead ts e
  behind : ∀ i ∈ rest, e < i.token.span.stop

theorem Ended.mono {ts us rest rest' : List Item} {e : Nat} (h : Ended us rest e) (hus : us <:+ ts)
    (hrest : rest' <:+ rest) : Ended ts rest' e :=
  ⟨h.ahead.mono hus, fun i hi => h.behind i (hrest.subset hi)⟩

/-- What is left has nothing that `e` marks. -/
theorem Ended.not_ahead {ts rest : List Item} {e : Nat} (h : Ended ts rest e) : ¬Ahead rest e := by
  intro hahead
  obtain ⟨i, hi, rfl⟩ := hahead.exists_mem
  exact absurd (h.behind i hi) (Nat.lt_irrefl _)

/-- **All marks of what was read** have been passed. -/
def EndsEach {α : Type} (stops : α → List Nat) (ts : List Item) (a : α)
    (rest : List Item) : Prop :=
  ∀ e ∈ stops a, Ended ts rest e

section EndsEach

variable {ε α β : Type} {stops : α → List Nat} {stops' : β → List Nat} {ts us : List Item}

theorem EndsEach.mono {a : α} {rest : List Item} (h : EndsEach stops us a rest) (hus : us <:+ ts) :
    EndsEach stops ts a rest :=
  fun e he => (h e he).mono hus (List.suffix_refl _)

/-- What was read first is passed by what is read next. -/
theorem gives_andThen_endsEach {r : Reading Item ε α ts} {stops' : β → List Nat}
    {next : α → (us : List Item) → us.length ≤ ts.length → Reading Item ε β us}
    (hr : Gives r (EndsEach stops ts))
    (h : ∀ a us le, us <:+ ts →
      Gives (next a us le) fun b rest => ∀ e ∈ stops' b, e ∈ stops a ∨ Ended us rest e) :
    Gives (r.andThen next) (EndsEach stops' ts) := by
  intro b hb e he
  obtain ⟨a, ha, hnext⟩ := Reading.outcome_andThen_eq_ok hb
  rw [Reading.andThen_of_ok ha]
  have hsuffix := (next a r.rest r.suffix.length_le).suffix
  rcases h a r.rest r.suffix.length_le r.suffix b hnext e he with hin | hended
  · exact (hr a ha e hin).mono (List.suffix_refl _) hsuffix
  · exact hended.mono r.suffix (List.suffix_refl _)

/-- A reader without marks in front of one that has some. -/
theorem gives_andThen_mono {r : Reading Item ε α ts}
    {next : α → (us : List Item) → us.length ≤ ts.length → Reading Item ε β us}
    (h : ∀ a us le, us <:+ ts → Gives (next a us le) (EndsEach stops' us)) :
    Gives (r.andThen next) (EndsEach stops' ts) :=
  gives_andThen fun a us le hus b hb => (h a us le hus b hb).mono hus

end EndsEach

/-! ### The names -/

/-- The name of a declaration, if it has a value. -/
def assignedName (name : Ident) (value : Option String) : List Ident :=
  if value.isSome then [name] else []

def Param.assigned (p : Param) : List Ident :=
  assignedName p.name p.fallback

def EnumCase.assigned (c : EnumCase) : List Ident :=
  assignedName c.name c.value

def Property.assigned (p : Property) : List Ident :=
  assignedName p.name p.fallback

/-- The names of the parameters of a method that have a default. -/
def Method.assigned (m : Method) : List Ident :=
  m.params.flatMap Param.assigned

/-- **The names of the members of a class that have a value**, and those of their parameters. -/
def Members.assigned (ms : Members) : List Ident :=
  ms.constants.map (·.name) ++ ms.cases.flatMap EnumCase.assigned
    ++ ms.properties.flatMap Property.assigned ++ ms.methods.flatMap Method.assigned

def Member.assigned : Member → List Ident
  | .constants cs => cs.map (·.name)
  | .case c => c.assigned
  | .properties ps => ps.flatMap Property.assigned
  | .method m => m.assigned
  | _ => []

/-- **The names in a file that have a value.** -/
def SourceFile.assigned (f : SourceFile) : List Ident :=
  f.classes.flatMap fun c => c.toMembers.assigned

theorem Members.mem_assigned_add {ms : Members} {m : Member} {i : Ident} :
    i ∈ (ms.add m).assigned ↔ i ∈ ms.assigned ∨ i ∈ m.assigned := by
  cases m
  all_goals
    simp only [add, assigned, Member.assigned, List.mem_append, List.map_append,
      List.flatMap_append, List.flatMap_singleton, List.not_mem_nil, or_false]
    try grind

/-- Where names stop. -/
def nameStops (names : List Ident) : List Nat :=
  names.map (·.span.stop)

/-! ### Reading a name with its value -/

/-- What a name belongs to. -/
inductive NameSort where
  | ofMember
  | ofVariable

/-- Whether an item is such a name. -/
def NameSort.takes : NameSort → Item → Bool
  | .ofMember, i => i.kind == .name || i.kind.isKeyword
  | .ofVariable, i => isKind .variableName i

/-- The name that an item spells. -/
def NameSort.ident : NameSort → Item → Ident
  | .ofMember, i => ⟨i.token.lexeme, i.token.span⟩
  | .ofVariable, i =>
    ⟨String.ofList (i.token.lexeme.toList.dropWhile (· == '$')), i.token.span⟩

theorem NameSort.ident_span (sort : NameSort) (i : Item) : (sort.ident i).span = i.token.span := by
  cases sort with
  | ofMember => rfl
  | ofVariable => rfl

theorem NameSort.isNaming {sort : NameSort} {i : Item} (h : sort.takes i) : isNaming i := by
  cases sort with
  | ofMember =>
    rw [Declaration.isNaming, Bool.or_eq_true]
    exact .inl h
  | ofVariable =>
    rw [Declaration.isNaming, Bool.or_eq_true]
    exact .inr h

/-- Takes a name of the sort. -/
def readNameOf (env : Env) : NameSort → (ts : List Item) → Read Ident ts
  | .ofMember, ts => readMemberName env ts
  | .ofVariable, ts => readVariable env ts

theorem map_expect_of {ε α : Type} {p : Item → Bool} {t : Item} (ht : p t)
    (reason : List Item → ε) (f : Item → α) (us : List Item) :
    (Reading.expect p reason (t :: us)).map f = .behind t (.done (f t)) := by
  rw [Reading.expect, Reading.onNext, if_pos ht]
  rfl

theorem readNameOf_of_takes (env : Env) {sort : NameSort} {t : Item} (ht : sort.takes t)
    (us : List Item) : readNameOf env sort (t :: us) = .behind t (.done (sort.ident t)) := by
  cases sort with
  | ofMember => exact map_expect_of ht _ _ us
  | ofVariable => exact map_expect_of ht _ _ us

/-- **Reads a name**, and its value behind an equals sign, if there is one. -/
def readAssigned (env : Env) (sort : NameSort) (stops : Item → Bool) (ts : List Item) :
    Read (Ident × Option String) ts :=
  (readNameOf env sort ts).andThen fun name us _ =>
    (readDefault env stops us).map fun value => (name, value)

/-- Where the name stops, if it has a value. -/
def assignedStops (a : Ident × Option String) : List Nat :=
  nameStops (assignedName a.1 a.2)

theorem readNameOf_gives (env : Env) (sort : NameSort) (ts : List Item) :
    Gives (readNameOf env sort ts) fun name us =>
      ∃ t, ts = t :: us ∧ sort.takes t ∧ name = sort.ident t := by
  cases sort with
  | ofMember =>
    refine Gives.map (gives_onNext_cases (fun t us _ hts ht => ?_) fun _ => nofun)
    exact gives_done ⟨t, hts, ht, rfl⟩
  | ofVariable =>
    refine Gives.map (gives_onNext_cases (fun t us _ hts ht => ?_) fun _ => nofun)
    exact gives_done ⟨t, hts, ht, rfl⟩

/-- A value stands behind an equals sign. -/
theorem readDefault_gives (env : Env) (stops : Item → Bool) (ts : List Item) :
    Gives (readDefault env stops ts) fun value rest => value.isSome = true →
      ∃ t us, ts = t :: us ∧ isMark .equals t ∧ rest <:+ us := by
  refine gives_onNext_cases (fun t us _ hts ht => ?_) fun _ => gives_done nofun
  intro value _ _
  exact ⟨t, us, hts, ht, ((readExpression env stops us).map some).suffix⟩

/-- The name is the first item. -/
theorem readAssigned_gives_cons (env : Env) (sort : NameSort) (stops : Item → Bool)
    (ts : List Item) :
    Gives (readAssigned env sort stops ts) fun a rest => ∃ t us, ts = t :: us ∧ sort.takes t ∧
      ∀ e ∈ assignedStops a, e = t.token.span.stop ∧ ∃ c vs, us = c :: vs ∧
      isMark .equals c ∧
        rest <:+ vs := by
  refine (readNameOf_gives env sort ts).andThen fun name us _ _ hname => ?_
  obtain ⟨t, rfl, ht, rfl⟩ := hname
  refine Gives.map fun value hvalue => ⟨t, us, rfl, ht, fun e he => ?_⟩
  rw [assignedStops, nameStops, assignedName] at he
  split at he
  · next hsome =>
    obtain rfl : e = (sort.ident t).span.stop := List.mem_singleton.1 he
    rw [sort.ident_span]
    exact ⟨rfl, readDefault_gives env stops us value hvalue hsome⟩
  · cases he

/-- **The name of a value has been passed.** -/
theorem readAssigned_gives (env : Env) (sort : NameSort) (stops : Item → Bool) {ts : List Item}
    (h : Ordered ts) : Gives (readAssigned env sort stops ts) (EndsEach assignedStops ts) := by
  intro a ha e he
  obtain ⟨t, us, rfl, ht, hstops⟩ := readAssigned_gives_cons env sort stops ts a ha
  obtain ⟨rfl, c, vs, rfl, hc, hrest⟩ := hstops e he
  refine ⟨.inr ⟨t, c, vs, List.suffix_refl _, NameSort.isNaming ht, hc, rfl⟩,
    fun i hi => ?_⟩
  exact List.rel_of_pairwise_cons h (List.mem_cons_of_mem c (hrest.subset hi))

/-- Behind a name and an equals sign comes the value. -/
theorem readAssigned_of_equals (env : Env) {sort : NameSort} (stops : Item → Bool) {t c : Item}
    (ht : sort.takes t) (hc : isMark .equals c) (us : List Item) :
    readAssigned env sort stops (t :: c :: us) = .behind t (.behind c
      ((readExpression env stops us).map fun value => (sort.ident t, some value))) := by
  have hdefault :
      readDefault env stops (c :: us) = .behind c ((readExpression env stops us).map some) := by
    rw [readDefault, Reading.onNext, if_pos hc]
  rw [readAssigned, readNameOf_of_takes env ht, Reading.behind_andThen,
    Reading.done_andThen, hdefault]
  rcases readExpression env stops us with ⟨outcome, rest, suffix⟩
  cases outcome with
  | ok value => rfl
  | error fault => rfl

/-! ### Cases and constants -/

/-- Reads a case behind its keyword. -/
def readCaseEnd (env : Env) (doc : Option Comment) (start : Span) (ts : List Item) :
    Read EnumCase ts :=
  (readAssigned env .ofMember (isMark .semicolon) ts).andThen fun a us _ =>
  (expectMark env .semicolon us).map fun closing =>
    { name := a.1, value := a.2, doc, span := start.merge closing.span }

theorem readCase_eq (env : Env) (doc : Option Comment) (start : Span) (ts : List Item) :
    readCase env doc start ts = (expectKeyword env .kwCase ts).andThen fun _ us _ =>
      readCaseEnd env doc start us := by
  simp only [readCase, readCaseEnd, readAssigned, readNameOf, Reading.andThen_andThen,
    Reading.map_andThen]

theorem readCaseEnd_gives (env : Env) (doc : Option Comment) (start : Span) {ts : List Item}
    (h : Ordered ts) :
    Gives (readCaseEnd env doc start ts) (EndsEach (fun c => nameStops c.assigned) ts) := by
  refine gives_andThen_endsEach (readAssigned_gives env _ _ h) fun a _ _ _ => ?_
  exact Gives.map fun _ _ _ he => .inl he

theorem readCase_gives (env : Env) (doc : Option Comment) (start : Span) {ts : List Item}
    (h : Ordered ts) :
    Gives (readCase env doc start ts) (EndsEach (fun c => nameStops c.assigned) ts) := by
  rw [readCase_eq]
  exact gives_andThen_mono fun _ _ _ hus => readCaseEnd_gives env doc start (h.suffix hus)

/-- Reads the constants behind the one that was read. -/
def readMoreConstants (env : Env) (make : Ident → String → Constant)
    (a : Ident × Option String) (ts : List Item) : Read (List Constant) ts :=
  match a.2 with
  | none => .fail (env.faultAt (.expectedAfter "=" "constant name") ts)
  | some value =>
    Reading.onNext (isMark .comma) ts
      (fun _ us _ => (readConstantList env make us).map (make a.1 value :: ·))
      (.done [make a.1 value])

theorem readConstantList_eq (env : Env) (make : Ident → String → Constant) (ts : List Item) :
    readConstantList env make ts
      = (readAssigned env .ofMember endsConstant ts).andThen fun a us _ =>
      readMoreConstants env make a us := by
  rw [readConstantList]
  simp only [readAssigned, readNameOf, readDefault, Reading.andThen_andThen, Reading.map_andThen,
    Reading.onNext_andThen, Reading.done_andThen]
  rfl

/-- Where the names of constants stop. -/
def constantStops (cs : List Constant) : List Nat :=
  nameStops (cs.map (·.name))

theorem readMoreConstants_gives (env : Env) {make : Ident → String → Constant}
    (hmake : ∀ name value, (make name value).name = name) (a : Ident × Option String)
    {ts : List Item}
    (hmore : ∀ us, us <:+ ts → us.length < ts.length →
      Gives (readConstantList env make us) (EndsEach constantStops us)) :
    Gives (readMoreConstants env make a ts) fun cs rest =>
      ∀ e ∈ constantStops cs, e ∈ assignedStops a ∨ Ended ts rest e := by
  obtain ⟨name, value⟩ := a
  cases value with
  | none => exact nofun
  | some value =>
    refine gives_onNext_cases (fun t us lt hts _ => ?_) fun _ => gives_done fun e he => ?_
    · have hus : us <:+ ts := hts ▸ List.suffix_cons t us
      refine Gives.map fun cs hcs e he => ?_
      rw [constantStops, nameStops, List.map_cons, List.map_cons, List.mem_cons, hmake] at he
      rcases he with rfl | he
      · exact .inl (List.mem_singleton_self _)
      · exact .inr ((hmore us hus lt cs hcs e he).mono hus (List.suffix_refl _))
    · rw [constantStops, nameStops, List.map_singleton, List.map_singleton, hmake] at he
      exact .inl he

theorem readConstantList_gives (env : Env) {make : Ident → String → Constant}
    (hmake : ∀ name value, (make name value).name = name) {ts : List Item} (h : Ordered ts) :
    Gives (readConstantList env make ts) (EndsEach constantStops ts) := by
  rw [readConstantList_eq]
  refine gives_andThen_endsEach (readAssigned_gives env _ _ h) fun a us le hus => ?_
  refine readMoreConstants_gives env hmake a fun vs hvs lt => ?_
  exact readConstantList_gives env hmake (h.suffix (hvs.trans hus))
termination_by ts.length
decreasing_by omega

/-- Reads constants behind their type. -/
def readConstantsEnd (env : Env) (make : Ident → String → Constant) (ts : List Item) :
    Read (List Constant) ts :=
  (readConstantList env make ts).andThen fun constants us _ =>
  (expectMark env .semicolon us).map fun _ => constants

theorem readConstantsEnd_gives (env : Env) {make : Ident → String → Constant}
    (hmake : ∀ name value, (make name value).name = name) {ts : List Item} (h : Ordered ts) :
    Gives (readConstantsEnd env make ts) (EndsEach constantStops ts) := by
  refine gives_andThen_endsEach (readConstantList_gives env hmake h) fun _ _ _ _ => ?_
  exact Gives.map fun _ _ _ he => .inl he

theorem readConstants_gives (env : Env) (modifiers : Modifiers) (doc : Option Comment)
    (start : Span) {ts : List Item} (h : Ordered ts) :
    Gives (readConstants env modifiers doc start ts) (EndsEach constantStops ts) :=
  gives_andThen_mono fun _ _ _ hus => gives_andThen_mono fun _ _ _ hvs =>
    readConstantsEnd_gives env (fun _ _ => rfl) (h.suffix (hvs.trans hus))

/-! ### Properties and parameters -/

/-- Reads the properties behind one with its block of accessors. -/
def readMoreProperties (env : Env) (make : Ident → Option String → Bool → Property)
    (a : Ident × Option String) (hasHooks : Bool) (ts : List Item) : Read (List Property) ts :=
  let property := make a.1 a.2 hasHooks
  if hasHooks then .done [property]
  else
    Reading.onNext (isMark .comma) ts
      (fun _ us _ => (readPropertyList env make us).map (property :: ·))
      ((expectMark env .semicolon ts).map fun _ => [property])

theorem readPropertyList_eq (env : Env) (make : Ident → Option String → Bool → Property)
    (ts : List Item) :
    readPropertyList env make ts
      = (readAssigned env .ofVariable endsProperty ts).andThen fun a us _ =>
      (readHooks env us).andThen fun hasHooks us _ =>
        readMoreProperties env make a hasHooks us := by
  rw [readPropertyList]
  simp only [readAssigned, readNameOf, readMoreProperties, Reading.andThen_andThen,
    Reading.map_andThen]

/-- Where the names of properties with a default stop. -/
def propertyStops (ps : List Property) : List Nat :=
  nameStops (ps.flatMap Property.assigned)

theorem readMoreProperties_gives (env : Env) {make : Ident → Option String → Bool → Property}
    (hmake : ∀ name value hasHooks, (make name value hasHooks).assigned = assignedName name value)
    (a : Ident × Option String) (hasHooks : Bool) {ts : List Item}
    (hmore : ∀ us, us <:+ ts → us.length < ts.length →
      Gives (readPropertyList env make us) (EndsEach propertyStops us)) :
    Gives (readMoreProperties env make a hasHooks ts) fun ps rest =>
      ∀ e ∈ propertyStops ps, e ∈ assignedStops a ∨ Ended ts rest e := by
  have hfirst (e : Nat) (he : e ∈ propertyStops [make a.1 a.2 hasHooks]) :
      e ∈ assignedStops a := by
    rwa [propertyStops, List.flatMap_singleton, hmake] at he
  rw [readMoreProperties]
  split
  · exact gives_done fun e he => .inl (hfirst e he)
  · refine gives_onNext_cases (fun t us lt hts _ => ?_) fun _ => ?_
    · have hus : us <:+ ts := hts ▸ List.suffix_cons t us
      refine Gives.map fun ps hps e he => ?_
      rw [propertyStops, List.flatMap_cons, hmake, nameStops, List.map_append,
        List.mem_append] at he
      exact he.imp_right fun he => (hmore us hus lt ps hps e he).mono hus (List.suffix_refl _)
    · exact Gives.map fun _ _ e he => .inl (hfirst e he)

theorem readPropertyList_gives (env : Env) {make : Ident → Option String → Bool → Property}
    (hmake : ∀ name value hasHooks, (make name value hasHooks).assigned = assignedName name value)
    {ts : List Item} (h : Ordered ts) :
    Gives (readPropertyList env make ts) (EndsEach propertyStops ts) := by
  rw [readPropertyList_eq]
  refine gives_andThen_endsEach (readAssigned_gives env _ _ h) fun a us le hus => ?_
  refine gives_andThen fun hasHooks vs le' hvs ps hps e he => ?_
  have hmore := readMoreProperties_gives env hmake a hasHooks fun ws hws lt =>
    readPropertyList_gives env hmake (h.suffix (hws.trans (hvs.trans hus)))
  exact (hmore ps hps e he).imp_right fun hended => hended.mono hvs (List.suffix_refl _)
termination_by ts.length
decreasing_by omega

theorem readProperties_gives (env : Env) (modifiers : Modifiers) (doc : Option Comment)
    (start : Span) {ts : List Item} (h : Ordered ts) :
    Gives (readProperties env modifiers doc start ts) (EndsEach propertyStops ts) :=
  gives_andThen_mono fun _ _ _ hus =>
    readPropertyList_gives env (fun _ _ _ => rfl) (h.suffix hus)

/-- Reads what stands in front of the name of a parameter. -/
def readParamFront (env : Env) (ts : List Item) :
    Read (Option Comment × Modifiers × Option TypeHint × Bool × Bool) ts :=
  (skipAttributes ts).andThen fun _ us _ =>
  let doc := firstDoc (docComment? ts) us
  (readModifiers env {} us).andThen fun modifiers us _ =>
  (readHintIf env (!next startsUntyped us) us).andThen fun type us _ =>
  (skipMark .ampersand us).andThen fun byRef us _ =>
  (skipMark .ellipsis us).map fun variadic => (doc, modifiers, type, byRef, variadic)

/-- Reads a parameter from its name on. -/
def readParamEnd (env : Env) (start : Span)
    (front : Option Comment × Modifiers × Option TypeHint × Bool × Bool) (ts : List Item) :
    Read Param ts :=
  (readAssigned env .ofVariable endsParam ts).andThen fun a us _ =>
  (readHooks env us).map fun _ =>
    { name := a.1, type := front.2.2.1, fallback := a.2, byRef := front.2.2.2.1
      variadic := front.2.2.2.2, doc := front.1, span := start.merge a.1.span
      promoted := if front.2.1.promotes then some front.2.1 else none }

theorem readParam_eq (env : Env) (ts : List Item) :
    readParam env ts = (readParamFront env ts).andThen fun front us _ =>
      readParamEnd env (env.current ts).span front us := by
  simp only [readParam, readParamFront, readParamEnd, readAssigned, readNameOf,
    Reading.andThen_andThen, Reading.map_andThen]

theorem readParamEnd_gives (env : Env) (start : Span)
    (front : Option Comment × Modifiers × Option TypeHint × Bool × Bool) {ts : List Item}
    (h : Ordered ts) :
    Gives (readParamEnd env start front ts) (EndsEach (fun p => nameStops p.assigned) ts) := by
  refine gives_andThen_endsEach (readAssigned_gives env _ _ h) fun a _ _ _ => ?_
  exact Gives.map fun _ _ _ he => .inl he

theorem readParam_endsEach (env : Env) {ts : List Item} (h : Ordered ts) :
    Gives (readParam env ts) (EndsEach (fun p => nameStops p.assigned) ts) := by
  rw [readParam_eq]
  exact gives_andThen_mono fun front _ _ hus => readParamEnd_gives env _ front (h.suffix hus)

/-- Where the names of parameters with a default stop. -/
def paramStops (ps : List Param) : List Nat :=
  nameStops (ps.flatMap Param.assigned)

/-- Reads the parameters behind the one that was read. -/
def readMoreParams (env : Env) (param : Param) (ts : List Item) : Read (List Param) ts :=
  Reading.onNext (isMark .comma) ts (fun _ us _ => (readParamList env us).map (param :: ·))
    (.done [param])

theorem readParamList_eq (env : Env) (ts : List Item) :
    readParamList env ts = if next (isMark .parenClose) ts then .done []
      else (readParam env ts).andThen fun param us _ => readMoreParams env param us := by
  rw [readParamList]
  rfl

theorem readMoreParams_gives (env : Env) (p : Param) {ts : List Item}
    (hmore : ∀ us, us <:+ ts → us.length < ts.length →
      Gives (readParamList env us) (EndsEach paramStops us)) :
    Gives (readMoreParams env p ts) fun ps rest =>
      ∀ e ∈ paramStops ps, e ∈ nameStops p.assigned ∨ Ended ts rest e := by
  refine gives_onNext_cases (fun t us lt hts _ => ?_) fun _ => gives_done fun e he => ?_
  · have hus : us <:+ ts := hts ▸ List.suffix_cons t us
    refine Gives.map fun ps hps e he => ?_
    rw [paramStops, List.flatMap_cons, nameStops, List.map_append, List.mem_append] at he
    exact he.imp_right fun he => (hmore us hus lt ps hps e he).mono hus (List.suffix_refl _)
  · rw [paramStops, List.flatMap_singleton] at he
    exact .inl he

theorem readParamList_gives (env : Env) {ts : List Item} (h : Ordered ts) :
    Gives (readParamList env ts) (EndsEach paramStops ts) := by
  rw [readParamList_eq]
  split
  · exact gives_done nofun
  · refine gives_andThen_endsEach (readParam_endsEach env h) fun p us le hus => ?_
    refine readMoreParams_gives env p fun vs hvs lt => ?_
    exact readParamList_gives env (h.suffix (hvs.trans hus))
termination_by ts.length
decreasing_by omega

/-- Reads parameters behind the opening parenthesis. -/
def readParamsEnd (env : Env) (ts : List Item) : Read (List Param) ts :=
  (readParamList env ts).andThen fun params us _ =>
  (expectMark env .parenClose us).map fun _ => params

theorem readParamsEnd_gives (env : Env) {ts : List Item} (h : Ordered ts) :
    Gives (readParamsEnd env ts) (EndsEach paramStops ts) := by
  refine gives_andThen_endsEach (readParamList_gives env h) fun _ _ _ _ => ?_
  exact Gives.map fun _ _ _ he => .inl he

theorem readParams_gives (env : Env) {ts : List Item} (h : Ordered ts) :
    Gives (readParams env ts) (EndsEach paramStops ts) :=
  gives_andThen_mono fun _ _ _ hus => readParamsEnd_gives env (h.suffix hus)

end PhpHandbook.Declaration
