import PhpHandbook.Proofs.AssignedNames

/-!
# Where the bodies of methods stop

The span of a method reaches to the end of its body, so the declarations of a file tell where the
bodies of its methods stop.  Each of these offsets is one where a block of the text stops, a block
that lies between what was left to read before the method and what is left behind it.  Together with
the names that have a value, these are the marks that a declaration owns.

## Main definitions

* `SourceFile.bodyStops`: the offsets where the bodies of methods stop.
* `Members.ownStops`: these and the offsets where names with a value stop.

## Main statements

* `readMember_gives`, `readBody_gives`, `readClass_gives`: what is marked in what was read has been
  passed.
* `readStatements_adds`: the same of all statements of a file.
-/

namespace PhpHandbook.Declaration

open Source (Span TokenKind)

/-! ### The offsets -/

/-- Where the body of a method stops, if it has one. -/
def Method.bodyStops (m : Method) : List Nat :=
  if m.hasBody then [m.span.stop] else []

def Member.bodyStops : Member → List Nat
  | .method m => m.bodyStops
  | _ => []

/-- Where the bodies of the methods of a class stop. -/
def Members.bodyStops (ms : Members) : List Nat :=
  ms.methods.flatMap Method.bodyStops

def NamespaceBlock.bodyStops (b : NamespaceBlock) : List Nat :=
  b.classes.flatMap fun c => c.toMembers.bodyStops

/-- **Where the bodies of the methods of a file stop.** -/
def SourceFile.bodyStops (f : SourceFile) : List Nat :=
  f.blocks.flatMap NamespaceBlock.bodyStops

def Draft.bodyStops (d : Draft) : List Nat :=
  (d.finished ++ [d.current]).flatMap NamespaceBlock.bodyStops

theorem Members.bodyStops_add (ms : Members) (m : Member) :
    (ms.add m).bodyStops = ms.bodyStops ++ m.bodyStops := by
  cases m with
  | method m =>
    show (ms.methods ++ [m]).flatMap Method.bodyStops
      = ms.methods.flatMap Method.bodyStops ++ m.bodyStops
    rw [List.flatMap_append, List.flatMap_singleton]
  | _ => exact (List.append_nil _).symm

/-- What a method owns: the names of its parameters that have a default, and its body. -/
def Method.ownStops (m : Method) : List Nat :=
  nameStops m.assigned ++ m.bodyStops

def Member.ownStops (m : Member) : List Nat :=
  nameStops m.assigned ++ m.bodyStops

/-- **What the members of a class own**: the names that have a value, and the bodies of methods. -/
def Members.ownStops (ms : Members) : List Nat :=
  nameStops ms.assigned ++ ms.bodyStops

/-- What the classes of a draft own. -/
def Draft.ownStops (d : Draft) : List Nat :=
  d.classes.flatMap fun c => c.toMembers.ownStops

theorem Members.mem_ownStops_add {ms : Members} {m : Member} {e : Nat} :
    e ∈ (ms.add m).ownStops ↔ e ∈ ms.ownStops ∨ e ∈ m.ownStops := by
  have hnames : e ∈ nameStops (ms.add m).assigned ↔
      e ∈ nameStops ms.assigned ∨ e ∈ nameStops m.assigned := by
    simp only [nameStops, List.mem_map, mem_assigned_add, or_and_right, exists_or]
  simp only [ownStops, Member.ownStops, List.mem_append, bodyStops_add, hnames]
  grind

/-! ### Methods -/

theorem skipBlock_of_open (env : Env) {t : Item} {us : List Item} (ht : isMark .braceOpen t) :
    skipBlock env (t :: us) = .behind t (skipToClose t.token.span 0 us) := by
  rw [skipBlock, expectMark, Reading.expect, Reading.onNext, if_pos ht]
  rfl

/-- A block that has been passed stops at one of its tokens, and no block within it stops there. -/
structure Passed (t : Item) (us : List Item) (span : Span) (rest : List Item) : Prop where
  closing : ∃ c ∈ us, span.stop = c.token.span.stop
  ended : Ended (t :: us) rest span.stop
  not_within : ¬Ahead us span.stop

theorem skipToClose_gives {t : Item} {us : List Item} (h : Ordered (t :: us))
    (ht : isMark .braceOpen t) : Gives (skipToClose t.token.span 0 us) (Passed t us) := by
  intro span hspan
  obtain ⟨body, c, vs, rfl, hbody, hc, rfl, hrest⟩ := exists_of_skipToClose_eq_ok hspan
  have hcs : c :: vs <:+ t :: (body ++ c :: vs) :=
    (List.suffix_append body (c :: vs)).trans (List.suffix_cons t _)
  have hmem : c ∈ body ++ c :: vs := List.mem_append_right body List.mem_cons_self
  have hlt : t.token.span.stop < c.token.span.stop := List.rel_of_pairwise_cons h hmem
  have hstop : (t.token.span.merge c.token.span).stop = c.token.span.stop :=
    Nat.max_eq_right (Nat.le_of_lt hlt)
  have hended : Ended (t :: (body ++ c :: vs)) vs c.token.span.stop :=
    ⟨.inl ⟨t, body, c, vs, List.suffix_refl _, ht, hbody, hc, rfl⟩,
      fun i hi => List.rel_of_pairwise_cons (h.suffix hcs) hi⟩
  rw [hrest]
  refine ⟨⟨c, hmem, hstop⟩, ?_, ?_⟩
  · rwa [hstop]
  · rw [hstop]
    exact not_ahead_of_balanced (h.suffix (List.suffix_cons t _)) hbody hc (List.suffix_refl _)

/-- **The body of a method** is the block that it ends with. -/
theorem readMethodEnd_gives (env : Env) {ts : List Item} (h : Ordered ts) :
    Gives (readMethodEnd env ts) fun a rest => a.1 = true →
      ∃ t us, ts = t :: us ∧ Passed t us a.2 rest := by
  rw [readMethodEnd]
  split
  · next hnext =>
    cases ts with
    | nil => cases hnext
    | cons t us =>
      rw [skipBlock_of_open env hnext]
      exact Gives.map fun span hspan _ => ⟨t, us, rfl, skipToClose_gives h hnext span hspan⟩
  · exact Gives.map fun _ _ => nofun

/-- A span that starts in front of the items. -/
def Leads (start : Span) (ts : List Item) : Prop :=
  ∀ i ∈ ts, start.stop ≤ i.token.span.stop

theorem Leads.suffix {start : Span} {ts us : List Item} (h : Leads start ts) (hus : us <:+ ts) :
    Leads start us :=
  fun i hi => h i (hus.subset hi)

theorem Leads.merge_stop {start span : Span} {t : Item} {us rest : List Item}
    (h : Leads start (t :: us)) (hspan : Passed t us span rest) :
    (start.merge span).stop = span.stop := by
  obtain ⟨c, hc, hstop⟩ := hspan.closing
  have hle := h c (List.mem_cons_of_mem t hc)
  rw [← hstop] at hle
  exact Nat.max_eq_right hle

theorem leads_current (env : Env) {ts : List Item} (h : Ordered ts) :
    Leads (env.current ts).span ts := by
  cases ts with
  | nil => exact nofun
  | cons t us =>
    intro i hi
    rcases List.mem_cons.1 hi with rfl | hi
    · exact Nat.le_refl _
    · exact Nat.le_of_lt (List.rel_of_pairwise_cons h hi)

/-- Reads a method up to its name. -/
def readMethodFront (env : Env) (ts : List Item) : Read (Bool × Ident) ts :=
  (expectKeyword env .kwFunction ts).andThen fun _ us _ =>
  (skipMark .ampersand us).andThen fun returnsReference us _ =>
  (readMemberName env us).map fun name => (returnsReference, name)

/-- Reads the parameters of a method and its type. -/
def readMethodTypes (env : Env) (front : Bool × Ident) (ts : List Item) :
    Read (Bool × Ident × List Param × Option TypeHint) ts :=
  (readParams env ts).andThen fun params us _ =>
  (readReturnHint env us).map fun returnType => (front.1, front.2, params, returnType)

/-- Reads a method up to its end. -/
def readSignature (env : Env) (ts : List Item) :
    Read (Bool × Ident × List Param × Option TypeHint) ts :=
  (readMethodFront env ts).andThen fun front us _ => readMethodTypes env front us

/-- The end of a method, with what was read of it. -/
def readEndOf (env : Env) (modifiers : Modifiers) (doc : Option Comment) (start : Span)
    (sig : Bool × Ident × List Param × Option TypeHint) (ts : List Item) : Read Method ts :=
  (readMethodEnd env ts).map fun (hasBody, stop) =>
    { name := sig.2.1, modifiers, params := sig.2.2.1, returnType := sig.2.2.2
      returnsReference := sig.1, hasBody, doc, span := start.merge stop }

/-- A method is a signature and an end. -/
theorem readMethod_eq (env : Env) (modifiers : Modifiers) (doc : Option Comment) (start : Span)
    (ts : List Item) :
    readMethod env modifiers doc start ts
      = (readSignature env ts).andThen fun sig us _ =>
        readEndOf env modifiers doc start sig us := by
  simp only [readMethod, readSignature, readMethodFront, readMethodTypes, readEndOf,
    Reading.andThen_andThen, Reading.map_andThen]

theorem readEndOf_gives (env : Env) (modifiers : Modifiers) (doc : Option Comment) {start : Span}
    (sig : Bool × Ident × List Param × Option TypeHint) {ts : List Item} (h : Ordered ts)
    (hstart : Leads start ts) :
    Gives (readEndOf env modifiers doc start sig ts) (EndsEach Method.bodyStops ts) := by
  refine Gives.map fun a ha e he => ?_
  obtain ⟨hasBody, stop⟩ := a
  have hend := readMethodEnd_gives env h _ ha
  cases hasBody with
  | false => cases he
  | true =>
    obtain ⟨t, us, rfl, hpassed⟩ := hend rfl
    obtain rfl := List.mem_singleton.1 he
    rw [hstart.merge_stop hpassed]
    exact hpassed.ended

/-- Where the names of parameters with a default stop, in what was read of a method. -/
def signatureStops (sig : Bool × Ident × List Param × Option TypeHint) : List Nat :=
  paramStops sig.2.2.1

theorem readMethodTypes_gives (env : Env) (front : Bool × Ident) {ts : List Item}
    (h : Ordered ts) :
    Gives (readMethodTypes env front ts) (EndsEach signatureStops ts) := by
  refine gives_andThen_endsEach (readParams_gives env h) fun _ _ _ _ => ?_
  exact Gives.map fun _ _ _ he => .inl he

theorem readSignature_gives (env : Env) {ts : List Item} (h : Ordered ts) :
    Gives (readSignature env ts) (EndsEach signatureStops ts) :=
  gives_andThen_mono fun front _ _ hus => readMethodTypes_gives env front (h.suffix hus)

/-- The end of a method owns its body, in addition to what the signature does. -/
theorem readEndOf_ownStops (env : Env) (modifiers : Modifiers) (doc : Option Comment) {start : Span}
    (sig : Bool × Ident × List Param × Option TypeHint) {ts : List Item} (h : Ordered ts)
    (hstart : Leads start ts) : Gives (readEndOf env modifiers doc start sig ts) fun m rest =>
      ∀ e ∈ m.ownStops, e ∈ signatureStops sig ∨ Ended ts rest e := by
  intro m hm e he
  obtain ⟨a, -, rfl⟩ := Reading.outcome_map_eq_ok_iff.1 hm
  rcases List.mem_append.1 he with hname | hbody
  · exact .inl hname
  · exact .inr (readEndOf_gives env modifiers doc sig h hstart _ hm e hbody)

theorem readMethod_gives (env : Env) (modifiers : Modifiers) (doc : Option Comment) {start : Span}
    {ts : List Item} (h : Ordered ts) (hstart : Leads start ts) :
    Gives (readMethod env modifiers doc start ts) (EndsEach Method.ownStops ts) := by
  rw [readMethod_eq]
  refine gives_andThen_endsEach (readSignature_gives env h) fun sig us _ hus => ?_
  exact readEndOf_ownStops env modifiers doc sig (h.suffix hus) (hstart.suffix hus)

/-! ### Members -/

/-- Reads a member behind its modifiers. -/
def readDeclared (env : Env) (modifiers : Modifiers) (doc : Option Comment) (start : Span)
    (ts : List Item) : Read Member ts :=
  if next (isKeyword .kwConst) ts then (readConstants env modifiers doc start ts).map .constants
  else if next (isKeyword .kwFunction) ts then (readMethod env modifiers doc start ts).map .method
  else (readProperties env modifiers doc start ts).map .properties

theorem readModified_eq (env : Env) (doc : Option Comment) (start : Span) (ts : List Item) :
    readModified env doc start ts = (readModifiers env {} ts).andThen fun modifiers us _ =>
      readDeclared env modifiers (firstDoc doc us) start us :=
  rfl

/-- Reads a member behind its attributes. -/
def readAttributed (env : Env) (doc : Option Comment) (start : Span) (ts : List Item) :
    Read Member ts :=
  if next (isKeyword .kwCase) ts then (readCase env doc start ts).map .case
  else readModified env doc start ts

theorem readMember_eq (env : Env) (ts : List Item) :
    readMember env ts = Reading.onNext (isMark .semicolon) ts (fun _ _ _ => .done .nothing)
      (if next (isKeyword .kwUse) ts then (readTraitUse env ts).map .traitUse
      else (skipAttributes ts).andThen fun _ us _ =>
        readAttributed env (firstDoc (docComment? ts) us) (env.current ts).span us) :=
  rfl

/-- A member that only has names owns what they mark. -/
theorem Gives.names {α : Type} {ts : List Item} {r : Reading Item Fault α ts}
    {names : α → List Ident} (h : Gives r (EndsEach (fun a => nameStops (names a)) ts))
    {f : α → Member} (hf : ∀ a, (f a).ownStops = nameStops (names a)) :
    Gives (r.map f) (EndsEach Member.ownStops ts) := by
  refine Gives.map fun a ha e he => ?_
  rw [hf] at he
  exact h a ha e he

theorem readDeclared_gives (env : Env) (modifiers : Modifiers) (doc : Option Comment) {start : Span}
    {ts : List Item} (h : Ordered ts) (hstart : Leads start ts) :
    Gives (readDeclared env modifiers doc start ts) (EndsEach Member.ownStops ts) := by
  rw [readDeclared]
  split
  · exact (readConstants_gives env modifiers doc start h).names fun _ => List.append_nil _
  split
  · exact Gives.map (readMethod_gives env modifiers doc h hstart)
  · exact (readProperties_gives env modifiers doc start h).names fun _ => List.append_nil _

theorem readAttributed_gives (env : Env) (doc : Option Comment) {start : Span} {ts : List Item}
    (h : Ordered ts) (hstart : Leads start ts) :
    Gives (readAttributed env doc start ts) (EndsEach Member.ownStops ts) := by
  rw [readAttributed]
  split
  · exact (readCase_gives env doc start h).names fun _ => List.append_nil _
  · rw [readModified_eq]
    exact gives_andThen_mono fun modifiers us _ hus =>
      readDeclared_gives env modifiers _ (h.suffix hus) (hstart.suffix hus)

/-- **What a member owns** has been passed when it was read. -/
theorem readMember_gives (env : Env) {ts : List Item} (h : Ordered ts) :
    Gives (readMember env ts) (EndsEach Member.ownStops ts) := by
  rw [readMember_eq]
  refine gives_onNext (fun _ us _ _ => gives_done nofun) ?_
  split
  · exact Gives.map fun _ _ => nofun
  · exact gives_andThen_mono fun _ us _ hus =>
      readAttributed_gives env _ (h.suffix hus) ((leads_current env h).suffix hus)

/-! ### Classes -/

section Body

variable (env : Env) (ms : Members) {ts us : List Item}

theorem readBody_of_end (h : atBodyEnd ts = true) : readBody env ms ts = .done (ms, []) := by
  rw [readBody, dif_pos h]

theorem readBody_of_ok {member : Member} {suffix : us <:+ ts} (hts : ¬atBodyEnd ts = true)
    (hm : readMember env ts = ⟨.ok member, us, suffix⟩) :
    readBody env ms ts = (readBody env (ms.add member) us).widen suffix := by
  rw [readBody, dif_neg hts]
  split
  · next heq =>
    rw [hm] at heq
    cases heq
    rfl
  · next heq =>
    rw [hm] at heq
    cases heq

theorem readBody_of_error {fault : Fault} {suffix : us <:+ ts} (hts : ¬atBodyEnd ts = true)
    (hm : readMember env ts = ⟨.error fault, us, suffix⟩) :
    readBody env ms ts = ((readBody env ms (resumeMember env us).rest).map fun (ms, faults) =>
      (ms, fault :: faults)).widen ((resumeMember env us).suffix.trans suffix) := by
  rw [readBody, dif_neg hts]
  split
  · next heq =>
    rw [hm] at heq
    cases heq
  · next heq =>
    rw [hm] at heq
    cases heq
    rfl

/-- **What the members of a body keep**, by induction over its statements: what holds of the members
so far, and goes on to hold with each one that is read. -/
theorem readBody_keeps {P : List Item → Prop} {Q : Members → Prop}
    (hsuffix : ∀ {us vs}, P us → vs <:+ us → P vs)
    (hadd : ∀ {us ms m}, P us → Q ms → (readMember env us).outcome = .ok m → Q (ms.add m))
    {ms : Members} (hms : Q ms) {ts : List Item} (h : P ts) :
    (readBody env ms ts).Yields fun r => Q r.1 := by
  intro a ha
  by_cases hend : atBodyEnd ts = true
  · rw [readBody_of_end env ms hend] at ha
    cases ha
    exact hms
  · have hus := (readMember env ts).suffix
    cases hm : (readMember env ts).outcome with
    | ok member =>
      have hlt := readMember_advances env ts member hm
      rw [readBody_of_ok env ms hend (Reading.eq_of_outcome hm)] at ha
      exact readBody_keeps hsuffix hadd (hadd h hms hm) (hsuffix h hus) a ha
    | error fault =>
      have hlt := resumeMember_rest_lt env hend hus
      have hresumed := (resumeMember env (readMember env ts).rest).suffix.trans hus
      rw [readBody_of_error env ms hend (Reading.eq_of_outcome hm)] at ha
      have hrest := (readBody_keeps hsuffix hadd hms (hsuffix h hresumed)).map
        (Q := fun r : Members × List Fault => Q r.1) (f := fun r => (r.1, fault :: r.2))
          fun _ h => h
      exact hrest a ha
termination_by ts.length
decreasing_by all_goals omega

end Body

/-- **What the members of a class own** has been passed when its body was read. -/
theorem readBody_gives (env : Env) (ms : Members) {ts : List Item} (h : Ordered ts) :
    Gives (readBody env ms ts) fun a rest =>
      ∀ e ∈ a.1.ownStops, e ∈ ms.ownStops ∨ Ended ts rest e := by
  intro a ha e he
  by_cases hend : atBodyEnd ts = true
  · rw [readBody_of_end env ms hend] at ha
    cases ha
    exact .inl he
  · have hus := (readMember env ts).suffix
    cases hm : (readMember env ts).outcome with
    | ok member =>
      have hlt := readMember_advances env ts member hm
      rw [readBody_of_ok env ms hend (Reading.eq_of_outcome hm)] at ha ⊢
      have hrest := (readBody env (ms.add member) (readMember env ts).rest).suffix
      rcases readBody_gives env (ms.add member) (h.suffix hus) a ha e he with hin | hended
      · rcases Members.mem_ownStops_add.1 hin with hin | hin
        · exact .inl hin
        · exact .inr ((readMember_gives env h member hm e hin).mono (List.suffix_refl _) hrest)
      · exact .inr (hended.mono hus (List.suffix_refl _))
    | error fault =>
      let us := (resumeMember env (readMember env ts).rest).rest
      have hlt : us.length < ts.length := resumeMember_rest_lt env hend hus
      have hsuffix : us <:+ ts := (resumeMember env (readMember env ts).rest).suffix.trans hus
      rw [readBody_of_error env ms hend (Reading.eq_of_outcome hm)] at ha ⊢
      have hgives : Gives ((readBody env ms us).map fun (ms, faults) => (ms, fault :: faults))
          fun a rest => ∀ e ∈ a.1.ownStops, e ∈ ms.ownStops ∨ Ended us rest e :=
        Gives.map (readBody_gives env ms (h.suffix hsuffix))
      exact (hgives a ha e he).imp_right fun hended => hended.mono hsuffix (List.suffix_refl _)
termination_by ts.length
decreasing_by all_goals omega

/-- Reads the rest of a class behind its header. -/
def readClassRest (env : Env) (header : ClassLike) (ts : List Item) :
    Reading Item (List Fault) (ClassLike × List Fault) ts :=
  ((readBody env {} ts).mapError fun fault => [fault]).andThen fun (members, faults) us _ =>
  ((expectMark env .braceClose us).mapError fun fault => faults ++ [fault]).map fun closing =>
    ({ header with toMembers := members, span := header.span.merge closing.span }, faults)

theorem readClassRest_gives (env : Env) (header : ClassLike) {ts : List Item} (h : Ordered ts) :
    Gives (readClassRest env header ts) (EndsEach (fun a => a.1.toMembers.ownStops) ts) := by
  have hbody := (readBody_gives env {} h).mapError (f := fun fault => [fault])
  refine hbody.andThen fun (members, faults) us _ hus hstops => Gives.map fun _ _ e he => ?_
  have hrest := ((expectMark env .braceClose us).mapError fun fault => faults ++ [fault]).suffix
  exact ((hstops e he).resolve_left List.not_mem_nil).mono (List.suffix_refl _) hrest

theorem readClass_gives (env : Env) {ts : List Item} (h : Ordered ts) :
    Gives (readClass env ts) (EndsEach (fun a => a.1.toMembers.ownStops) ts) :=
  gives_andThen fun header _ _ hus a ha =>
    (readClassRest_gives env header (h.suffix hus) a ha).mono hus

/-! ### Files -/

section Drafts

variable (d : Draft)

/-- The bodies in a draft are those in its classes, and belong to what these own. -/
theorem Draft.bodyStops_subset : d.bodyStops ⊆ d.ownStops := by
  have hstops : d.bodyStops = d.classes.flatMap fun c => c.toMembers.bodyStops :=
    List.flatMap_assoc.symm
  rw [hstops]
  intro e he
  obtain ⟨c, hc, he⟩ := List.mem_flatMap.1 he
  exact List.mem_flatMap.2 ⟨c, hc, List.mem_append_right _ he⟩

theorem Draft.ownStops_of_classes {d d' : Draft} (h : d'.classes = d.classes) :
    d'.ownStops = d.ownStops := by
  rw [ownStops, ownStops, h]

theorem Draft.ownStops_addClass (c : ClassLike) :
    (d.addClass c).ownStops = d.ownStops ++ c.toMembers.ownStops := by
  rw [ownStops, ownStops, classes_addClass, List.flatMap_append, List.flatMap_singleton]

end Drafts

/-- What a round over statements adds to a draft, on its way from `ts` to `rest`. -/
structure Extends (ts rest : List Item) (d d' : Draft) : Prop where
  stops : ∀ e ∈ d'.ownStops, e ∈ d.ownStops ∨ Ended ts rest e
  faults : d'.faults = [] → d.faults = []

theorem extends_of_classes {ts rest : List Item} {d d' : Draft} (hclasses : d'.classes = d.classes)
    (hfaults : d'.faults = [] → d.faults = []) : Extends ts rest d d' :=
  ⟨fun _ he => .inl (Draft.ownStops_of_classes hclasses ▸ he), hfaults⟩

theorem extends_addFaults {ts rest : List Item} (d : Draft) (faults : List Fault) :
    Extends ts rest d (d.addFaults faults) :=
  extends_of_classes rfl fun h => (List.append_eq_nil_iff.1 h).1

/-- What one round adds. -/
def Round.Adds (ts : List Item) (d : Draft) : Round (Draft × Bool) Draft → Prop
  | .exit _ us a => Extends ts us d a
  | .again s us finish => finish = id ∧ Extends ts us d s.1

theorem statementsRound_adds (env : Env) (d : Draft) (fresh : Bool) {ts : List Item}
    (h : Ordered ts) :
    (statementsRound env (d, fresh) ts).Adds ts d := by
  have hsame (ts rest : List Item) : Extends ts rest d d := extends_of_classes rfl id
  cases ts with
  | nil => exact hsame _ _
  | cons t us =>
    rw [statementsRound]
    split
    · exact ⟨rfl, hsame _ _⟩
    split
    · rcases hread : readNamespace env t.token.span us with ⟨outcome, vs, suffix⟩
      cases outcome with
      | ok a =>
        have hclasses : a.1.classes = [] := readNamespace_classes.of_eq hread
        exact ⟨rfl, extends_of_classes (d.classes_enter hclasses _) id⟩
      | error fault => exact ⟨rfl, extends_addFaults d _⟩
    split
    · rcases readImports env us with ⟨outcome, vs, suffix⟩
      cases outcome with
      | ok items => exact ⟨rfl, extends_of_classes (d.classes_addImports items) id⟩
      | error fault => exact ⟨rfl, extends_addFaults d _⟩
    split
    · rcases hread : readClass env (t :: us) with ⟨outcome, vs, suffix⟩
      cases outcome with
      | ok a =>
        obtain ⟨c, faults⟩ := a
        have hended := readClass_gives env h (c, faults) (by rw [hread])
        rw [hread] at hended
        refine ⟨rfl, fun e he => ?_, fun hnone => (List.append_eq_nil_iff.1 hnone).1⟩
        rw [Draft.ownStops_addClass, List.mem_append] at he
        exact he.imp_right (hended e)
      | error faults => exact ⟨rfl, extends_addFaults d faults⟩
    split
    · rcases skipToClose t.token.span 0 us with ⟨outcome, vs, suffix⟩
      cases outcome with
      | ok span => exact ⟨rfl, hsame _ _⟩
      | error fault => exact extends_addFaults d _
    split
    · exact ⟨rfl, extends_of_classes (d.classes_leave _) fun h =>
        (d.leave_faults _).symm.trans h⟩
    · exact ⟨rfl, hsame _ _⟩

section Rounds

variable {env : Env} {d : Draft} {fresh : Bool} {ts : List Item}

theorem readStatements_of_exit {depth : Int} {us : List Item} {a : Draft}
    (h : statementsRound env (d, fresh) ts = .exit depth us a) :
    readStatements env d fresh ts = a := by
  have hfits := (statementsLoop_sound env).fits (d, fresh) ts trivial
  rw [show (statementsLoop env).round (d, fresh) ts = .exit depth us a from h] at hfits
  exact hfits.2.2

theorem readStatements_of_again {s : Draft × Bool} {us : List Item} {finish : Draft → Draft}
    (h : statementsRound env (d, fresh) ts = .again s us finish) :
    us <:+ ts ∧ us.length < ts.length ∧
      readStatements env d fresh ts = finish (readStatements env s.1 s.2 us) := by
  have hfits := (statementsLoop_sound env).fits (d, fresh) ts trivial
  rw [show (statementsLoop env).round (d, fresh) ts = .again s us finish from h] at hfits
  exact hfits.2

end Rounds

/-- **All statements together** add bodies that stop at blocks ahead. -/
theorem readStatements_adds (env : Env) (d : Draft) (fresh : Bool) {ts : List Item}
    (h : Ordered ts) :
    (∀ e ∈ (readStatements env d fresh ts).ownStops, e ∈ d.ownStops ∨ Ahead ts e) ∧
      ((readStatements env d fresh ts).faults = [] → d.faults = []) := by
  have hadds := statementsRound_adds env d fresh h
  cases hround : statementsRound env (d, fresh) ts with
  | exit depth us a =>
    rw [hround] at hadds
    rw [readStatements_of_exit hround]
    exact ⟨fun e he => (hadds.stops e he).imp_right Ended.ahead, hadds.faults⟩
  | again s us finish =>
    rw [hround] at hadds
    obtain ⟨hus, hlt, hanswer⟩ := readStatements_of_again hround
    obtain ⟨rfl, hadds⟩ := hadds
    obtain ⟨hstops, hfaults⟩ := readStatements_adds env s.1 s.2 (h.suffix hus)
    rw [hanswer]
    refine ⟨fun e he => ?_, fun hnone => hadds.faults (hfaults hnone)⟩
    rcases hstops e he with hin | hahead
    · exact (hadds.stops e hin).imp_right Ended.ahead
    · exact .inr (hahead.mono hus)
termination_by ts.length
decreasing_by omega

end PhpHandbook.Declaration
