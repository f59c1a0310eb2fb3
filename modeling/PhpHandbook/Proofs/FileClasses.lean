import PhpHandbook.Declaration.Naming
import PhpHandbook.Proofs.ReadersEnd

/-!
# The classes of a file

Statements outside of classes leave the classes of a draft as they are, and a class that is read
comes behind all others.  So a property of the classes so far and of the items that are left goes on
to hold to the end of a file, if it only goes on over what is passed and over each class.

## Main definitions

* `SourceFile.classes`: the classes of a file, in order.
* `StatementsKeep`: a property that goes on over statements, and one of the faults that they report.

## Main statements

* `StatementsKeep.readStatements`: what is kept holds at the end.
* `StatementsKeep.parse`: and so of the classes of a file.
-/

namespace PhpHandbook.Declaration

open Source (Span Token TokenKind tokenize)
open Reading (yields_true yields_done yields_fail yields_onNext)

/-- **The classes of a file**, in the order of the source. -/
def SourceFile.classes (f : SourceFile) : List ClassLike :=
  f.blocks.flatMap (·.classes)

/-- The classes of a draft, in the order of the source. -/
def Draft.classes (d : Draft) : List ClassLike :=
  (d.finished ++ [d.current]).flatMap (·.classes)

section Drafts

variable (d : Draft)

theorem Draft.classes_enter {block : NamespaceBlock} (h : block.classes = []) (isBraced : Bool) :
    (d.enter block isBraced).classes = d.classes := by
  show (d.finished ++ [d.current] ++ [block]).flatMap (·.classes) = d.classes
  rw [List.flatMap_append, List.flatMap_singleton, h, List.append_nil]
  rfl

theorem Draft.classes_addImports (items : List Import) :
    (d.addImports items).classes = d.classes := by
  simp only [classes, addImports, List.flatMap_append, List.flatMap_singleton]

theorem Draft.classes_addClass (c : ClassLike) : (d.addClass c).classes = d.classes ++ [c] := by
  simp only [classes, addClass, List.flatMap_append, List.flatMap_singleton, List.append_assoc]

theorem Draft.classes_leave (behind : Span) : (d.leave behind).classes = d.classes := by
  rw [leave]
  split
  · simp only [classes, List.flatMap_append, List.flatMap_singleton]
  · rfl

theorem Draft.leave_faults (behind : Span) : (d.leave behind).faults = d.faults := by
  rw [leave]
  split
  · rfl
  · rfl

/-- Blocks that are left out have no classes. -/
theorem Draft.flatMap_blocks : d.blocks.flatMap (·.classes) = d.classes := by
  rw [blocks, classes]
  induction d.finished ++ [d.current] with
  | nil => rfl
  | cons b bs ih =>
    rw [List.filter_cons, List.flatMap_cons, ← ih]
    split
    · rw [List.flatMap_cons]
    · next hnone =>
      have hclasses : b.classes = [] := by
        simp only [Bool.or_eq_true, Bool.not_eq_true', not_or] at hnone
        simpa using hnone.1.2
      rw [hclasses, List.nil_append]

end Drafts

theorem readNamespace_classes {env : Env} {span : Span} {ts : List Item} :
    (readNamespace env span ts).Yields fun r => r.1.classes = [] :=
  fun r hread => (readNamespace_block r hread).2.1

/-! ### What statements keep -/

/-- **What reading statements keeps**: a property of the items that are left and of the classes so
far, and one of the faults that are reported. -/
structure StatementsKeep (env : Env) (P : List Item → List ClassLike → Prop)
    (E : Fault → Prop) : Prop where
  suffix : ∀ {us vs cs}, P us cs → vs <:+ us → P vs cs
  addClass : ∀ {us cs r}, P us cs → (readClass env us).outcome = .ok r →
    P (readClass env us).rest (cs ++ [r.1]) ∧ ∀ f ∈ r.2, E f
  classFails : ∀ {us cs faults}, P us cs → (readClass env us).outcome = .error faults →
    ∀ f ∈ faults, E f
  namespaceFails : ∀ {t us cs fault}, P (t :: us) cs →
    (readNamespace env t.token.span us).outcome = .error fault → E fault
  importsFail : ∀ {t us cs fault}, P (t :: us) cs →
    (readImports env us).outcome = .error fault → E fault
  blockFails : ∀ {t us cs fault}, P (t :: us) cs →
    (skipToClose t.token.span 0 us).outcome = .error fault → E fault

/-- A property that goes on over classes, with nothing said of faults. -/
theorem statementsKeep_of_classes {env : Env} {P : List Item → List ClassLike → Prop}
    (hsuffix : ∀ {us vs cs}, P us cs → vs <:+ us → P vs cs)
    (hclass : ∀ {us cs r}, P us cs → (readClass env us).outcome = .ok r →
      P (readClass env us).rest (cs ++ [r.1])) : StatementsKeep env P fun _ => True where
  suffix := hsuffix
  addClass h hread := ⟨hclass h hread, fun _ _ => trivial⟩
  classFails _ _ _ _ := trivial
  namespaceFails _ _ := trivial
  importsFail _ _ := trivial
  blockFails _ _ := trivial

section StatementsKeep

variable {env : Env} {P : List Item → List ClassLike → Prop} {E : Fault → Prop}

theorem addFaults_forall {d : Draft} {faults : List Fault} (hd : ∀ f ∈ d.faults, E f)
    (h : ∀ f ∈ faults, E f) : ∀ f ∈ (d.addFaults faults).faults, E f :=
  List.forall_mem_append.2 ⟨hd, h⟩

/-- **Reading statements**, by induction: what is kept holds at the end. -/
theorem StatementsKeep.readStatements (hkeep : StatementsKeep env P E) (d : Draft) (fresh : Bool)
    (ts : List Item) (h : P ts d.classes) (hfaults : ∀ f ∈ d.faults, E f) :
    ∃ us, P us (Declaration.readStatements env d fresh ts).classes ∧
      ∀ f ∈ (Declaration.readStatements env d fresh ts).faults, E f := by
  fun_induction Declaration.readStatements env d fresh ts with
  | case1 d fresh => exact ⟨[], h, hfaults⟩
  | case2 d fresh t us hsep ih => exact ih (hkeep.suffix h (List.suffix_cons t us)) hfaults
  | case3 d fresh t us hsep hahead block isBraced vs suffix hread hle ih =>
    have hblock : block.classes = [] := readNamespace_classes.of_eq hread
    refine ih ?_ hfaults
    exact d.classes_enter hblock isBraced ▸ hkeep.suffix h (suffix.trans (List.suffix_cons t us))
  | case4 d fresh t us hsep hahead fault vs suffix hread hle hresume ih =>
    have hfault := hkeep.namespaceFails h (by rw [hread])
    have hus := ((resumeStatement vs).suffix.trans suffix).trans (List.suffix_cons t us)
    exact ih (hkeep.suffix h hus) (addFaults_forall hfaults (by simpa using hfault))
  | case5 d fresh t us hsep hahead huse items vs suffix hread hle ih =>
    refine ih ?_ hfaults
    exact d.classes_addImports items ▸ hkeep.suffix h (suffix.trans (List.suffix_cons t us))
  | case6 d fresh t us hsep hahead huse fault vs suffix hread hle hresume ih =>
    have hfault := hkeep.importsFail h (by rw [hread])
    have hus := ((resumeStatement vs).suffix.trans suffix).trans (List.suffix_cons t us)
    exact ih (hkeep.suffix h hus) (addFaults_forall hfaults (by simpa using hfault))
  | case7 d fresh t us hsep hahead huse hclass c faults vs suffix hread hlt ih =>
    obtain ⟨hadd, hmore⟩ := hkeep.addClass (r := (c, faults)) h (by rw [hread])
    rw [hread] at hadd
    exact ih ((d.addFaults faults).classes_addClass c ▸ hadd) (addFaults_forall hfaults hmore)
  | case8 d fresh t us hsep hahead huse hclass faults vs suffix hread hle hresume ih =>
    have hmore := hkeep.classFails h (by rw [hread])
    exact ih (hkeep.suffix h ((resumeStatement vs).suffix.trans suffix))
      (addFaults_forall hfaults hmore)
  | case9 d fresh t us hsep hahead huse hclass hopen span vs suffix hread hle ih =>
    exact ih (hkeep.suffix h (suffix.trans (List.suffix_cons t us))) hfaults
  | case10 d fresh t us hsep hahead huse hclass hopen fault vs suffix hread =>
    have hfault := hkeep.blockFails h (by rw [hread])
    exact ⟨t :: us, h, addFaults_forall hfaults (by simpa using hfault)⟩
  | case11 d fresh t us hsep hahead huse hclass hopen hclose ih =>
    refine ih ?_ (d.leave_faults _ ▸ hfaults)
    exact d.classes_leave _ ▸ hkeep.suffix h (List.suffix_cons t us)
  | case12 d fresh t us hsep hahead huse hclass hopen hclose ih =>
    exact ih (hkeep.suffix h (List.suffix_cons t us)) hfaults

end StatementsKeep

/-- A text has items in front of its end. -/
theorem exists_items (source : List Char) : ∃ ts comments eof,
    attachComments [] (tokenize source).tokens = ts ++ [⟨comments, eof⟩] := by
  obtain ⟨init, htokens, -⟩ := Source.tokens_eof source
  have heof : ¬TokenKind.eof.isTrivia = true := Bool.false_ne_true
  obtain ⟨ts, comments, hts⟩ := @exists_attachComments_concat [] init ⟨.eof, _, _⟩ heof
  exact ⟨ts, comments, _, htokens ▸ hts⟩

/-- **The classes of a file** have what statements keep, and so have the faults that are reported
instead. -/
theorem StatementsKeep.parse {source : List Char} {ts : List Item} {comments : List Comment}
    {eof : Token} {P : List Item → List ClassLike → Prop} {E : Fault → Prop}
    (hkeep : StatementsKeep ⟨source, eof⟩ P E)
    (hitems : attachComments [] (tokenize source).tokens = ts ++ [⟨comments, eof⟩])
    (h : P ts []) :
    match (Declaration.parse source).outcome with
    | .ok file => ∃ us, P us file.classes
    | .error faults => ∀ f ∈ faults, E f := by
  rw [parse_outcome_of_items hitems]
  dsimp only
  obtain ⟨us, hclasses, hfaults⟩ := hkeep.readStatements
    { current := { name := none, span := (Env.current ⟨source, eof⟩ ts).span } } true
      ts h (by simp)
  split
  · next file hfile =>
    split at hfile
    · obtain rfl := Except.ok.inj hfile
      rw [SourceFile.classes, Draft.flatMap_blocks]
      exact ⟨us, hclasses⟩
    · cases hfile
  · next faults hfaults' =>
    split at hfaults'
    · cases hfaults'
    · obtain rfl := Except.error.inj hfaults'
      exact hfaults

end PhpHandbook.Declaration
