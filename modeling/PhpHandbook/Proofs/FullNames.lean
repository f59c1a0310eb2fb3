import PhpHandbook.Proofs.WrittenNames

/-!
# The characters of full names

A full name is put together from the name of a namespace and the name of a class.  Both are read
from tokens for names, which are made of words with separators between them.  So whatever sources
are registered, full names have no other characters: none that has a meaning in a path or in an
address.

## Main definitions

* `IsFullName`: a text is made of the characters of words, and separators.

## Main statements

* `tokenize_fullName`: tokens for names are full names.
* `fullName_of_mem_registerAll`: and so is the name of every declaration of a registry.
-/

namespace PhpHandbook

namespace Source

open Text (run)

/-- **A text of which every character may belong to a name**, or separates the parts of one. -/
def IsFullName (s : String) : Prop :=
  ∀ c ∈ s.toList, isNamePart c = true ∨ c = '\\'

theorem isFullName_ofList {cs : List Char} :
    IsFullName (String.ofList cs) ↔ ∀ c ∈ cs, isNamePart c = true ∨ c = '\\' := by
  rw [IsFullName, String.toList_ofList]

theorem IsFullName.append {s t : String} (hs : IsFullName s) (ht : IsFullName t) :
    IsFullName (s ++ t) := by
  rw [IsFullName, String.toList_append]
  exact List.forall_mem_append.2 ⟨hs, ht⟩

theorem isFullName_separator : IsFullName "\\" := by
  simp [IsFullName]

/-- A full name has no characters that mean something in a path or in an address. -/
theorem notMem_of_isFullName {name : String} (h : IsFullName name) {d : Char}
    (hd : isNamePart d = false ∧ d ≠ '\\') : d ∉ name.toList := by
  intro hmem
  rcases h d hmem with hpart | hseparator
  · rw [hd.1] at hpart
    cases hpart
  · exact hd.2 hseparator

/-! ### Tokens -/

/-- Further segments of a name are words behind separators. -/
theorem mem_take_segments {cs : List Char} {d : Char} (hd : d ∈ cs.take (segments cs)) :
    isNamePart d = true ∨ d = '\\' := by
  induction cs using segments.induct with
  | case1 c cs hc n ih =>
    have hall : segments ('\\' :: c :: cs) = n + segments (cs.drop n) + 1 + 1 := by
      rw [segments, if_pos hc]
      show 2 + n + segments (cs.drop n) = _
      omega
    rw [hall, List.take_succ_cons, List.take_succ_cons, List.take_add] at hd
    rcases List.mem_cons.1 hd with rfl | hd
    · exact .inr rfl
    rcases List.mem_cons.1 hd with rfl | hd
    · exact .inl (isNamePart_of_isNameStart hc)
    rcases List.mem_append.1 hd with hd | hd
    · exact .inl (isNamePart_of_mem_take_run hd)
    · exact ih hd
  | case2 c cs hc =>
    rw [segments, if_neg hc] at hd
    cases hd
  | case3 cs hcs =>
    rw [segments.eq_2 cs hcs] at hd
    cases hd

/-- **A token for names** is a word, or words with separators between them. -/
theorem munch_fullName {c : Char} {cs : List Char} {kind : TokenKind} {n : Nat}
    (h : munch c cs = .token kind n) (hname : kind.isName) :
    IsFullName (String.ofList (c :: cs.take n)) := by
  have hword : kind.isWord := by
    cases kind <;> first | rfl | cases hname
  rw [isFullName_ofList]
  rcases munch_word h hword with ⟨hc, hmunch⟩ | rfl | ⟨rfl, -⟩
  · refine List.forall_mem_cons.2 ⟨.inl (isNamePart_of_isNameStart hc), fun d hd => ?_⟩
    rcases munchWord_cases hmunch with ⟨-, rfl, -⟩ | ⟨-, rfl⟩
    · rw [List.take_add] at hd
      rcases List.mem_append.1 hd with hd | hd
      · exact .inl (isNamePart_of_mem_take_run hd)
      · exact mem_take_segments hd
    · exact .inl (isNamePart_of_mem_take_run hd)
  · rcases munch_named h rfl with ⟨-, hne⟩ | ⟨-, rfl, -⟩
    · exact absurd rfl hne
    · have hmunch : (if segments ('\\' :: cs) = 0 then Munched.token (.mark .backslash) 0
        else .token .rootedName (segments ('\\' :: cs) - 1)) = .token .rootedName n := h
      split at hmunch
      · cases hmunch
      · next hsegments =>
        cases hmunch
        have htake : '\\' :: cs.take (segments ('\\' :: cs) - 1)
            = ('\\' :: cs).take (segments ('\\' :: cs)) := by
          obtain ⟨k, hk⟩ := Nat.exists_eq_succ_of_ne_zero hsegments
          rw [hk, List.take_succ_cons, Nat.succ_sub_one]
        intro d hd
        rw [htake] at hd
        exact mem_take_segments hd
  · cases hname

/-- **The tokens for names** in a text are full names. -/
theorem tokenize_fullName : ∀ text : List Char, ∀ t ∈ (tokenize text).tokens,
    t.kind.isName → IsFullName t.lexeme := by
  refine forall_mem_tokenize (fun _ hname => nomatch hname) fun mode c cs span hname => ?_
  have hword : (piece mode c cs).kind.isWord := by
    revert hname
    show (piece mode c cs).kind.isName = true → _
    cases (piece mode c cs).kind <;> first | exact fun _ => rfl | exact fun hname => nomatch hname
  exact munch_fullName (munch_of_piece_isWord hword) hname

end Source

/-! ### Files -/

namespace Declaration

open Source (IsFullName)

/-- A name that is written in full, without the separator in front. -/
theorem isFullName_ofText {text : String} (h : IsFullName text) (span : Source.Span) :
    IsFullName (Name.ofText text span).text := by
  unfold Name.ofText
  split
  · next cs hcs =>
    rw [IsFullName, hcs] at h
    exact Source.isFullName_ofList.2 fun c hc => h c (List.mem_cons_of_mem _ hc)
  · exact h

/-- Items whose names are full names. -/
def ItemsInFull (ts : List Item) : Prop :=
  ∀ i ∈ ts, i.kind.isName → IsFullName i.token.lexeme

/-- **A block with its classes**, which are called by full names. -/
structure NamespaceBlock.InFull (b : NamespaceBlock) : Prop where
  name : ∀ n ∈ b.name, IsFullName n
  classes : ∀ c ∈ b.classes, IsFullName c.name.name

/-- **Reading statements keeps names full.** -/
theorem blocksKeep_inFull (env : Env) : BlocksKeep env ItemsInFull NamespaceBlock.InFull where
  suffix h hus i hi := h i (hus.subset hi)
  enter h r hread := by
    obtain ⟨-, hclasses, hname⟩ := readNamespace_block r hread
    refine ⟨fun n hn => ?_, by simp [hclasses]⟩
    obtain ⟨i, hi, hkind, rfl⟩ := hname n hn
    exact isFullName_ofText (h i hi hkind) _
  addImports _ hb _ _ := ⟨hb.name, hb.classes⟩
  addClass h hb r hread := by
    obtain ⟨i, hi, hkind, hname⟩ := readClass_name r hread
    refine ⟨hb.name, List.forall_mem_append.2 ⟨hb.classes, List.forall_mem_singleton.2 ?_⟩⟩
    rw [hname]
    exact h i hi (by rw [hkind]; rfl)
  leave _ hb := ⟨hb.name, hb.classes⟩

/-- **The blocks of a source without faults** and their classes are called by full names. -/
theorem parse_inFull {source : List Char} {file : SourceFile}
    (h : (parse source).outcome = .ok file) : ∀ b ∈ file.blocks, b.InFull := by
  refine BlocksKeep.parse blocksKeep_inFull (fun i hi hname => ?_)
    (fun _ => ⟨by simp, by simp⟩) h
  have hmem := token_mem_of_mem_attachComments ((List.dropLast_sublist _).subset hi)
  exact Source.tokenize_fullName source _ hmem hname

end Declaration

/-! ### Registries -/

namespace Registry

open Source (IsFullName)

theorem fullName_of_mem_declared {s : Submission} {e : ClassEntry} (he : e ∈ s.declared) :
    IsFullName e.name := by
  unfold Submission.declared at he
  split at he
  · next file hfile =>
    obtain ⟨block, hblock, he⟩ := List.mem_flatMap.1 he
    obtain ⟨decl, hdecl, rfl⟩ := List.mem_map.1 he
    have hfull := Declaration.parse_inFull hfile block hblock
    show IsFullName ((Scope.ofBlock block).qualify decl.name.name)
    unfold Scope.qualify
    split
    · exact hfull.classes decl hdecl
    · next hspace =>
      rw [Scope.ofBlock_space] at hspace ⊢
      cases hname : block.name with
      | none => simp [hname] at hspace
      | some space =>
        exact ((hfull.name space hname).append Source.isFullName_separator).append
          (hfull.classes decl hdecl)
  · cases he

/-- **Registered names are full names**, whatever sources are registered. -/
theorem fullName_of_mem_registerAll {submissions : List Submission} {e : ClassEntry}
    (he : e ∈ (registerAll submissions).entries) : IsFullName e.name :=
  forall_mem_registerAll (fun _ _ hdeclared => fullName_of_mem_declared hdeclared) submissions e he

end Registry

end PhpHandbook
