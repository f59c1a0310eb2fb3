import PhpHandbook.Proofs.BodyStops
import PhpHandbook.Proofs.Registration
import PhpHandbook.Proofs.Words

/-!
# The names in declarations

Everything in a declaration that has a name has it from a word of the source: constants and cases,
properties and parameters, methods, and the new names that rules give to methods.  Parents and
interfaces are class names, which are still names without their first part; so they are completed to
full names without a separator in front.

The argument follows the readers, the draft of a file, and the registry that a sequence of sources
leaves behind.

## Main definitions

* `Name.Whole`: a class name that is still a name without its first part.
* `Members.Spelled`, `ClassLike.Spelled`: the names in a declaration are words, or whole.

## Main statements

* `readBody_spelled`: the body of a class, by induction over its statements.
* `parse_spelled`: every class of a source that is read without faults is spelled so.
* `spelled_of_mem_registerAll`: and so is every declaration of a registry.
* `beginsName_resolve`: a class name that is completed begins like a name.
-/

namespace PhpHandbook

/-! ### Readers -/

namespace Declaration

open Source (IsWord beginsName)
open Reading (yields_done yields_fail yields_onNext yields_true yields_expect)

/-- A class name that is **still a name without its first part**. -/
def Name.Whole (n : Name) : Prop :=
  beginsName n.text ∧
    (n.kind = .qualified →
      ∃ rest, (Registry.splitFirst n.text).2 = some rest ∧ beginsName rest)

/-- The name that a token spells is whole. -/
theorem whole_ofText {t : Source.Token} (hnamed : t.Named) (hspelled : t.Spelled)
    (hname : t.kind.isName) : (Name.ofText t.lexeme t.span).Whole := by
  refine ⟨beginsName_ofText hnamed hname, fun hkind => ?_⟩
  unfold Name.ofText at hkind ⊢
  split at hkind
  · cases hkind
  · next hcs =>
    cases ht : t.kind with
    | rootedName =>
      obtain ⟨s, hs, -⟩ := hnamed.rooted ht
      exact absurd hs (hcs s)
    | qualifiedName => exact hspelled.qualified ht
    | name =>
      -- a word has no separator inside
      have hinside : t.lexeme.toList.contains '\\' = true := by
        by_contra hnot
        rw [if_neg hnot] at hkind
        cases hkind
      have hpart := hspelled.word (.inl ht) '\\' (by simpa using hinside)
      exact absurd hpart (by decide)
    | _ => simp [ht, Source.TokenKind.isName] at hname

/-- Items whose tokens come from a text. -/
def ItemsSpelled (ts : List Item) : Prop :=
  ∀ i ∈ ts, i.token.Named ∧ i.token.Spelled

theorem ItemsSpelled.suffix {ts us : List Item} (h : ItemsSpelled ts) (hus : us <:+ ts) :
    ItemsSpelled us :=
  fun i hi => h i (hus.subset hi)

theorem token_mem_of_mem_attachComments {pending : List Comment} {tokens : List Source.Token}
    {i : Item} (hi : i ∈ attachComments pending tokens) : i.token ∈ tokens := by
  induction tokens generalizing pending with
  | nil => simp [attachComments] at hi
  | cons t ts ih =>
    unfold attachComments at hi
    split at hi
    · exact List.mem_cons_of_mem t (ih hi)
    · rcases List.mem_cons.1 hi with rfl | hi
      · exact List.mem_cons_self
      · exact List.mem_cons_of_mem t (ih hi)

theorem itemsSpelled_tokenize (source : List Char) :
    ItemsSpelled (attachComments [] (Source.tokenize source).tokens).dropLast := by
  intro i hi
  have hmem := token_mem_of_mem_attachComments ((List.dropLast_sublist _).subset hi)
  exact ⟨Source.tokenize_named source _ hmem, Source.tokenize_spelled source _ hmem⟩

/-! ### What members are called -/

/-- A rule that gives a new name gives a word. -/
def Adaptation.Spelled : Adaptation → Prop
  | .rename _ _ _ (some newName) => IsWord newName
  | _ => True

/-- A method with its parameters. -/
structure Method.Spelled (m : Method) : Prop where
  name : IsWord m.name.name
  params : ∀ p ∈ m.params, IsWord p.name.name

/-- **The names in the body of a class are words.** -/
structure Members.Spelled (ms : Members) : Prop where
  adaptations : ∀ use ∈ ms.traitUses, ∀ a ∈ use.adaptations, a.Spelled
  constants : ∀ c ∈ ms.constants, IsWord c.name.name
  cases : ∀ c ∈ ms.cases, IsWord c.name.name
  properties : ∀ p ∈ ms.properties, IsWord p.name.name
  methods : ∀ m ∈ ms.methods, m.Spelled

/-- **The names in a declaration** are words, or whole. -/
structure ClassLike.Spelled (c : ClassLike) : Prop extends c.toMembers.Spelled where
  parents : ∀ n ∈ c.parents, n.Whole
  implements : ∀ n ∈ c.implements, n.Whole

/-- What one statement in the body of a class adds. -/
def Member.Spelled (m : Member) : Prop :=
  (Members.add {} m).Spelled

theorem Members.spelled_empty : ({} : Members).Spelled :=
  ⟨by simp, by simp, by simp, by simp, by simp⟩

/-- A statement keeps the names of a class words. -/
theorem Members.Spelled.add {ms : Members} (h : ms.Spelled) {m : Member} (hm : m.Spelled) :
    (ms.add m).Spelled := by
  cases m with
  | nothing => exact h
  | traitUse use =>
    exact { h with adaptations := List.forall_mem_append.2 ⟨h.adaptations, hm.adaptations⟩ }
  | case c => exact { h with cases := List.forall_mem_append.2 ⟨h.cases, hm.cases⟩ }
  | constants cs =>
    exact { h with constants := List.forall_mem_append.2 ⟨h.constants, hm.constants⟩ }
  | properties ps =>
    exact { h with properties := List.forall_mem_append.2 ⟨h.properties, hm.properties⟩ }
  | method m => exact { h with methods := List.forall_mem_append.2 ⟨h.methods, hm.methods⟩ }

variable {env : Env} {ts : List Item}

theorem readName_whole (h : ItemsSpelled ts) : (readName env ts).Yields Name.Whole :=
  (yields_expect _ _ ts).map fun i ⟨hi, hname⟩ => whole_ofText (h i hi).1 (h i hi).2 hname

theorem readMoreNames_whole (ts : List Item) (h : ItemsSpelled ts) :
    (readMoreNames env ts).Yields fun names => ∀ n ∈ names, n.Whole := by
  unfold readMoreNames
  refine yields_onNext (fun _ us _ _ hus _ => ?_) (yields_done (by simp))
  refine (readName_whole (h.suffix hus)).andThen fun n vs _ hvs hn => ?_
  exact (readMoreNames_whole vs (h.suffix (hvs.trans hus))).map fun names hnames =>
    List.forall_mem_cons.2 ⟨hn, hnames⟩
termination_by ts.length
decreasing_by omega

theorem readNames_whole (h : ItemsSpelled ts) :
    (readNames env ts).Yields fun names => ∀ n ∈ names, n.Whole :=
  (readName_whole h).andThen fun _ us _ hus hn =>
    (readMoreNames_whole us (h.suffix hus)).map fun _ hnames =>
      List.forall_mem_cons.2 ⟨hn, hnames⟩

theorem readNamesAfter_whole {word : Source.Keyword} (h : ItemsSpelled ts) :
    (readNamesAfter env word ts).Yields fun names => ∀ n ∈ names, n.Whole :=
  yields_onNext (fun _ _ _ _ hus _ => readNames_whole (h.suffix hus)) (yields_done (by simp))

theorem readMemberName_word (h : ItemsSpelled ts) :
    (readMemberName env ts).Yields fun i => IsWord i.name :=
  (yields_expect _ _ ts).map fun i ⟨hi, hkind⟩ =>
    (h i hi).2.word (by simpa [Item.kind] using hkind)

theorem readVariable_word (h : ItemsSpelled ts) :
    (readVariable env ts).Yields fun i => IsWord i.name :=
  (yields_expect _ _ ts).map fun i ⟨hi, hkind⟩ =>
    (h i hi).2.behindDollar (by simpa [isKind, Item.kind] using hkind)

theorem readAdaptation_spelled (h : ItemsSpelled ts) :
    (readAdaptation env ts).Yields Adaptation.Spelled := by
  refine (yields_true _).andThen fun traitName us _ hus _ => ?_
  refine (yields_true _).andThen fun method vs _ hvs _ => ?_
  refine yields_onNext (fun _ ws _ _ _ _ => ?_) ?_
  · cases traitName with
    | none => exact yields_fail _
    | some traitName => exact (yields_true _).map fun _ _ => trivial
  · refine (yields_true _).andThen fun _ ws _ hws _ => ?_
    refine (yields_true _).andThen fun word xs _ hxs _ => ?_
    dsimp only
    split
    · exact yields_done trivial
    · exact (readMemberName_word (h.suffix (hxs.trans (hws.trans (hvs.trans hus))))).map
        fun _ hname => hname

theorem readAdaptations_spelled (ts : List Item) (h : ItemsSpelled ts) :
    (readAdaptations env ts).Yields fun adaptations => ∀ a ∈ adaptations, a.Spelled := by
  unfold readAdaptations
  split
  · exact yields_done (by simp)
  · refine (readAdaptation_spelled h).andThen fun a us _ hus ha => ?_
    refine yields_onNext (fun _ vs _ _ hvs _ => ?_) (yields_fail _)
    exact (readAdaptations_spelled vs (h.suffix (hvs.trans hus))).map fun _ hmore =>
      List.forall_mem_cons.2 ⟨ha, hmore⟩
termination_by ts.length
decreasing_by omega

theorem readTraitUse_spelled (h : ItemsSpelled ts) :
    (readTraitUse env ts).Yields fun use => ∀ a ∈ use.adaptations, a.Spelled := by
  refine (yields_true _).andThen fun _ us _ hus _ => ?_
  refine (yields_true _).andThen fun _ vs _ hvs _ => ?_
  have hrules : (readUseEnd env vs).Yields fun r => ∀ a ∈ r.1, a.Spelled := by
    refine yields_onNext (fun _ ws _ _ hws _ => ?_) ((yields_true _).map fun _ _ => by simp)
    refine (readAdaptations_spelled ws (h.suffix (hws.trans (hvs.trans hus)))).andThen
      fun _ _ _ _ hadaptations => ?_
    exact (yields_true _).map fun _ _ => hadaptations
  exact hrules.map fun _ hadaptations => hadaptations

theorem readCase_word {doc : Option Comment} {start : Source.Span} (h : ItemsSpelled ts) :
    (readCase env doc start ts).Yields fun c => IsWord c.name.name := by
  refine (yields_true _).andThen fun _ us _ hus _ => ?_
  refine (readMemberName_word (h.suffix hus)).andThen fun name _ _ _ hname => ?_
  refine (yields_true _).andThen fun _ _ _ _ _ => ?_
  exact (yields_true _).map fun _ _ => hname

theorem readConstantList_word {make : Ident → String → Constant}
    (hmake : ∀ name value, (make name value).name = name) (ts : List Item) (h : ItemsSpelled ts) :
    (readConstantList env make ts).Yields fun cs => ∀ c ∈ cs, IsWord c.name.name := by
  unfold readConstantList
  refine (readMemberName_word h).andThen fun name us _ hus hname => ?_
  have hmade : ∀ value, IsWord (make name value).name.name := fun value => by rwa [hmake]
  refine yields_onNext (fun _ vs _ _ hvs _ => ?_) (yields_fail _)
  refine (yields_true _).andThen fun value ws _ hws _ => ?_
  refine yields_onNext (fun _ xs _ _ hxs _ => ?_) (yields_done (by simpa using hmade value))
  exact (readConstantList_word hmake xs (h.suffix (hxs.trans (hws.trans (hvs.trans hus))))).map
    fun _ hmore => List.forall_mem_cons.2 ⟨hmade value, hmore⟩
termination_by ts.length
decreasing_by omega

theorem readConstants_word {modifiers : Modifiers} {doc : Option Comment} {start : Source.Span}
    (h : ItemsSpelled ts) :
    (readConstants env modifiers doc start ts).Yields fun cs =>
      ∀ c ∈ cs, IsWord c.name.name := by
  refine (yields_true _).andThen fun _ us _ hus _ => ?_
  refine (yields_true _).andThen fun type vs _ hvs _ => ?_
  refine (readConstantList_word (fun _ _ => rfl) vs (h.suffix (hvs.trans hus))).andThen
    fun _ _ _ _ hconstants => ?_
  exact (yields_true _).map fun _ _ => hconstants

theorem readPropertyList_word {make : Ident → Option String → Bool → Property}
    (hmake : ∀ name fallback hasHooks, (make name fallback hasHooks).name = name) (ts : List Item)
    (h : ItemsSpelled ts) :
    (readPropertyList env make ts).Yields fun ps => ∀ p ∈ ps, IsWord p.name.name := by
  unfold readPropertyList
  refine (readVariable_word h).andThen fun name us _ hus hname => ?_
  refine (yields_true _).andThen fun fallback vs _ hvs _ => ?_
  refine (yields_true _).andThen fun hasHooks ws _ hws _ => ?_
  have hmade : IsWord (make name fallback hasHooks).name.name := by rwa [hmake]
  dsimp only
  split
  · exact yields_done (by simpa using hmade)
  · refine yields_onNext (fun _ xs _ _ hxs _ => ?_)
      ((yields_true _).map fun _ _ => by simpa using hmade)
    have hsuffix := hxs.trans (hws.trans (hvs.trans hus))
    exact (readPropertyList_word hmake xs (h.suffix hsuffix)).map fun _ hmore =>
      List.forall_mem_cons.2 ⟨hmade, hmore⟩
termination_by ts.length
decreasing_by omega

theorem readProperties_word {modifiers : Modifiers} {doc : Option Comment} {start : Source.Span}
    (h : ItemsSpelled ts) :
    (readProperties env modifiers doc start ts).Yields fun ps => ∀ p ∈ ps, IsWord p.name.name :=
  (yields_true _).andThen fun _ us _ hus _ =>
    readPropertyList_word (fun _ _ _ => rfl) us (h.suffix hus)

theorem readParam_word (h : ItemsSpelled ts) :
    (readParam env ts).Yields fun p => IsWord p.name.name := by
  refine (yields_true _).andThen fun _ us _ hus _ => ?_
  refine (yields_true _).andThen fun _ vs _ hvs _ => ?_
  refine (yields_true _).andThen fun _ ws _ hws _ => ?_
  refine (yields_true _).andThen fun _ xs _ hxs _ => ?_
  refine (yields_true _).andThen fun _ ys _ hys _ => ?_
  have hsuffix := hys.trans (hxs.trans (hws.trans (hvs.trans hus)))
  refine (readVariable_word (h.suffix hsuffix)).andThen fun name _ _ _ hname => ?_
  refine (yields_true _).andThen fun _ _ _ _ _ => ?_
  exact (yields_true _).map fun _ _ => hname

theorem readParamList_word (ts : List Item) (h : ItemsSpelled ts) :
    (readParamList env ts).Yields fun ps => ∀ p ∈ ps, IsWord p.name.name := by
  unfold readParamList
  split
  · exact yields_done (by simp)
  · refine (readParam_word h).andThen fun p us _ hus hp => ?_
    refine yields_onNext (fun _ vs _ _ hvs _ => ?_) (yields_done (by simpa using hp))
    exact (readParamList_word vs (h.suffix (hvs.trans hus))).map fun _ hmore =>
      List.forall_mem_cons.2 ⟨hp, hmore⟩
termination_by ts.length
decreasing_by omega

theorem readMethod_spelled {modifiers : Modifiers} {doc : Option Comment} {start : Source.Span}
    (h : ItemsSpelled ts) : (readMethod env modifiers doc start ts).Yields Method.Spelled := by
  refine (yields_true _).andThen fun _ us _ hus _ => ?_
  refine (yields_true _).andThen fun _ vs _ hvs _ => ?_
  have hvs : ItemsSpelled vs := h.suffix (hvs.trans hus)
  refine (readMemberName_word hvs).andThen fun name ws _ hws hname => ?_
  have hparams : (readParams env ws).Yields fun ps => ∀ p ∈ ps, IsWord p.name.name := by
    refine (yields_true _).andThen fun _ xs _ hxs _ => ?_
    refine (readParamList_word xs (hvs.suffix (hxs.trans hws))).andThen fun _ _ _ _ hps => ?_
    exact (yields_true _).map fun _ _ => hps
  refine hparams.andThen fun params _ _ _ hps => ?_
  refine (yields_true _).andThen fun _ _ _ _ _ => ?_
  exact (yields_true _).map fun _ _ => ⟨hname, hps⟩

/-! ### What classes are made of -/

theorem readModified_spelled {doc : Option Comment} {start : Source.Span} (h : ItemsSpelled ts) :
    (readModified env doc start ts).Yields Member.Spelled := by
  refine (yields_true _).andThen fun _ us _ hus _ => ?_
  have hus : ItemsSpelled us := h.suffix hus
  dsimp only
  split
  · exact (readConstants_word hus).map fun _ hcs => { Members.spelled_empty with constants := hcs }
  split
  · exact (readMethod_spelled hus).map fun m hm =>
      { Members.spelled_empty with methods := by simpa [Members.add] using hm }
  · exact (readProperties_word hus).map fun _ hps =>
      { Members.spelled_empty with properties := hps }

/-- **One statement** in the body of a class. -/
theorem readMember_spelled (h : ItemsSpelled ts) : (readMember env ts).Yields Member.Spelled := by
  refine yields_onNext (fun _ _ _ _ _ _ => yields_done Members.spelled_empty) ?_
  dsimp only
  split
  · exact (readTraitUse_spelled h).map fun use huse =>
      { Members.spelled_empty with adaptations := by simpa [Members.add] using huse }
  · refine (yields_true _).andThen fun _ us _ hus _ => ?_
    have hus : ItemsSpelled us := h.suffix hus
    split
    · exact (readCase_word hus).map fun c hc =>
        { Members.spelled_empty with cases := by simpa [Members.add] using hc }
    · exact readModified_spelled hus

/-- **The body of a class**: each of its statements keeps the names words. -/
theorem readBody_spelled (env : Env) {ms : Members} (hms : ms.Spelled) {ts : List Item}
    (h : ItemsSpelled ts) : (readBody env ms ts).Yields fun r => r.1.Spelled :=
  readBody_keeps env (fun h hvs => h.suffix hvs)
    (fun h hms hm => hms.add (readMember_spelled h _ hm)) hms h

theorem readHeader_whole (h : ItemsSpelled ts) :
    (readHeader env ts).Yields fun c => (∀ n ∈ c.parents, n.Whole) ∧
      ∀ n ∈ c.implements, n.Whole := by
  refine (yields_true _).andThen fun _ us _ hus _ => ?_
  refine (yields_true _).andThen fun _ vs _ hvs _ => ?_
  refine (yields_true _).andThen fun kind ws _ hws _ => ?_
  refine (yields_true _).andThen fun _ xs _ hxs _ => ?_
  refine (yields_true _).andThen fun _ ys _ hys _ => ?_
  have hys : ItemsSpelled ys :=
    h.suffix (hys.trans (hxs.trans (hws.trans (hvs.trans hus))))
  refine (readNamesAfter_whole hys).andThen fun parents zs _ hzs hparents => ?_
  refine (readNamesAfter_whole (hys.suffix hzs)).andThen fun implements _ _ _ himplements => ?_
  exact (yields_true _).map fun _ _ => ⟨hparents, himplements⟩

theorem readClass_spelled (h : ItemsSpelled ts) :
    (readClass env ts).Yields fun r => r.1.Spelled := by
  refine ((readHeader_whole h).mapError _).andThen fun header us _ hus hheader => ?_
  refine ((readBody_spelled env Members.spelled_empty (h.suffix hus)).mapError _).andThen
    fun r _ _ _ hmembers => ?_
  exact (yields_true _).map fun _ _ => ⟨hmembers, hheader.1, hheader.2⟩

/-! ### Files -/

/-- **Reading statements keeps classes spelled so.** -/
theorem statementsKeep_spelled (env : Env) :
    StatementsKeep env (fun ts cs => ItemsSpelled ts ∧ ∀ c ∈ cs, c.Spelled)
      fun _ => True := by
  refine statementsKeep_of_classes (fun h hvs => ⟨h.1.suffix hvs, h.2⟩)
    fun {us cs r} h hread => ?_
  have hr := readClass_spelled h.1 r hread
  exact ⟨h.1.suffix (readClass env us).suffix,
    List.forall_mem_append.2 ⟨h.2, by simpa using hr⟩⟩

/-- **Every class of a source without faults is spelled so.** -/
theorem parse_spelled {source : List Char} {file : SourceFile}
    (h : (parse source).outcome = .ok file) :
    ∀ b ∈ file.blocks, ∀ c ∈ b.classes, c.Spelled := by
  obtain ⟨ts, comments, eof, hitems⟩ := exists_items source
  have hspelled := itemsSpelled_tokenize source
  rw [hitems, List.dropLast_concat] at hspelled
  have hfile := (statementsKeep_spelled ⟨source, eof⟩).parse hitems ⟨hspelled, by simp⟩
  rw [h] at hfile
  obtain ⟨us, -, hclasses⟩ := hfile
  exact fun b hb c hc => hclasses c (List.mem_flatMap.2 ⟨b, hb, hc⟩)

end Declaration

/-! ### Registries -/

namespace Registry

open Source (beginsName)
open Declaration (Name)

theorem spelled_of_mem_declared {s : Submission} {e : ClassEntry} (he : e ∈ s.declared) :
    e.decl.Spelled := by
  unfold Submission.declared at he
  split at he
  · next file hfile =>
    obtain ⟨block, hblock, he⟩ := List.mem_flatMap.1 he
    obtain ⟨decl, hdecl, rfl⟩ := List.mem_map.1 he
    exact Declaration.parse_spelled hfile block hblock decl hdecl
  · cases he

/-- What a registry has after one more source, it had before or the source declares it. -/
theorem mem_submit {reg : Registry} {s : Submission} {e : ClassEntry}
    (he : e ∈ (reg.submit s).2.entries) : e ∈ reg.entries ∨ e ∈ s.declared := by
  cases houtcome : (Declaration.parse s.source.toList).outcome with
  | error faults =>
    rw [submit_of_error houtcome] at he
    exact .inl he
  | ok file =>
    obtain ⟨added, hsub, -, hentries, -⟩ := submit_of_ok houtcome reg
    rw [hentries] at he
    refine (List.mem_append.1 he).imp_right fun he => ?_
    rw [Submission.declared, houtcome]
    exact hsub.subset he

/-- **What every source declares, every declaration of a registry has**, by induction over the
sources. -/
theorem forall_mem_registerAll {P : ClassEntry → Prop}
    (h : ∀ s : Submission, ∀ e ∈ s.declared, P e) (submissions : List Submission) :
    ∀ e ∈ (registerAll submissions).entries, P e := by
  have hall : ∀ reg : Registry, (∀ e ∈ reg.entries, P e) →
      ∀ e ∈ (submissions.foldl (fun reg s => (reg.submit s).2) reg).entries, P e := by
    induction submissions with
    | nil => exact fun reg hreg => hreg
    | cons s submissions ih =>
      refine fun reg hreg => ih (reg.submit s).2 fun e he => ?_
      rcases mem_submit he with he | he
      · exact hreg e he
      · exact h s e he
  exact hall empty (by simp [empty])

/-- **Every declaration of a registry is spelled so.** -/
theorem spelled_of_mem_registerAll {submissions : List Submission} {e : ClassEntry}
    (he : e ∈ (registerAll submissions).entries) : e.decl.Spelled :=
  forall_mem_registerAll (fun _ _ hdeclared => spelled_of_mem_declared hdeclared) submissions e he

/-! ### Full names -/

theorem beginsName_qualify {e : ClassEntry} (he : e.WellFormed) {text : String}
    (h : beginsName text) : beginsName (e.scope.qualify text) := by
  unfold Scope.qualify
  split
  · exact h
  · next hspace =>
    -- the name of the declaration begins with the namespace
    have hname := he.named
    rw [he.name_eq, Scope.qualify, if_neg hspace] at hname
    refine Source.beginsName_append (Source.beginsName_append ?_ _) _
    unfold beginsName at hname ⊢
    rw [String.toList_append, String.toList_append] at hname
    cases hcs : e.scope.space.toList with
    | nil => simp [String.isEmpty_iff, ← String.toList_inj, hcs] at hspace
    | cons c cs => simpa [hcs] using hname

theorem beginsName_imported {e : ClassEntry} (he : e.WellFormed) {localName full : String}
    (h : e.scope.imported? localName = some full) : beginsName full := by
  obtain ⟨i, hi, rfl⟩ := Option.map_eq_some_iff.1 h
  exact he.imports i (List.mem_of_find?_eq_some hi)

/-- **A class name that is completed begins like a name.** -/
theorem beginsName_resolve {e : ClassEntry} (he : e.WellFormed) {n : Name} (hn : n.Whole) :
    beginsName (e.scope.resolve n) := by
  unfold Scope.resolve
  split
  · exact hn.1
  · next hkind =>
    obtain ⟨rest, hrest, hbegins⟩ := hn.2 hkind
    unfold Scope.resolveQualified
    simp only [hrest, Option.getD_some]
    split
    · exact beginsName_qualify he hbegins
    · split
      · next himported =>
        exact Source.beginsName_append
          (Source.beginsName_append (beginsName_imported he himported) _) _
      · exact beginsName_qualify he hn.1
  · split
    · exact hn.1
    · cases himported : e.scope.imported? n.text with
      | none => exact beginsName_qualify he hn.1
      | some full => exact beginsName_imported he himported

end Registry

end PhpHandbook
