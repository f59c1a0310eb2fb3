import PhpHandbook.Declaration.FileReader

/-!
# Names that are read begin like names

Everything that a source gives a name to — a class, a namespace, an import — takes that name
from a token for names.  Such a token begins with a character that may start a name, behind its
separator if it has one in front.  So no name that is read is empty, and none keeps a separator in
front.

The argument follows the text through the layers: the longest token (`munch`), the walk over the
text (`walk`), single readers (`Reading.Yields`), and the blocks of a file (`BlocksKeep`).

## Main definitions

* `beginsName`: a text begins with a character that may start a name.
* `Reading.Yields`: what a reader gives, where it succeeds, has a property.
* `NamespaceBlock.Named`: every name that a block gives or imports begins like a name.
* `BlocksKeep`: a property of blocks that goes on over statements.

## Main statements

* `BlocksKeep.parse`: the blocks of a file have what is kept, by induction over its statements.
* `parse_named`: every block of a source that is read without faults is named.
-/

namespace PhpHandbook

namespace Source

/-- Whether a text begins with a character that may start a name. -/
def beginsName (s : String) : Bool :=
  s.toList.head?.any isNameStart

theorem beginsName_append {s : String} (h : beginsName s) (t : String) : beginsName (s ++ t) := by
  unfold beginsName at h ⊢
  rw [String.toList_append]
  cases hs : s.toList with
  | nil => simp [hs] at h
  | cons c cs => simpa [hs] using h

/-! ### Tokens -/

/-- A token for names begins like a name, behind the separator in front of a rooted one. -/
structure Token.Named (t : Token) : Prop where
  /-- A name without a separator in front. -/
  plain : t.kind = .name ∨ t.kind = .qualifiedName → beginsName t.lexeme
  /-- A name with a separator in front. -/
  rooted : t.kind = .rootedName → ∃ s, t.lexeme.toList = '\\' :: s ∧ s.head?.any isNameStart

theorem segments_pos {cs : List Char} (h : segments ('\\' :: cs) ≠ 0) :
    2 ≤ segments ('\\' :: cs) ∧ cs.head?.any isNameStart := by
  cases cs with
  | nil => simp [segments] at h
  | cons c cs =>
    rw [segments] at h ⊢
    split at h
    · next hc => exact ⟨by simp only [hc, if_true]; omega, by simpa using hc⟩
    · exact absurd rfl h

/-- Operators are never names. -/
theorem operatorToken_kind (c : Char) (cs : List Char) :
    (operatorToken c cs).1.isName = false := by
  unfold operatorToken operatorMark?
  simp only
  split <;> rfl

theorem munchSlash_ne_name {cs : List Char} {kind : TokenKind} {n : Nat}
    (h : munchSlash cs = .token kind n) : kind.isName = false := by
  have hop := operatorToken_kind '/' cs
  unfold munchSlash at h
  split at h
  · cases h; rfl
  · simp only at h
    split at h
    · split at h <;> cases h
      · exact hop
      · rfl
    · split at h <;> cases h
      exact hop
  · cases h
    exact hop

theorem munchAngle_ne_name {cs : List Char} {kind : TokenKind} {n : Nat}
    (h : munchAngle cs = .token kind n) : kind.isName = false := by
  have hop := operatorToken_kind '<' cs
  unfold munchAngle at h
  simp only at h
  split at h
  · split at h
    · split at h <;> cases h
      exact hop
    · cases h
      exact hop
  · cases h
    exact hop

theorem munchWord_kind {c : Char} {cs : List Char} {kind : TokenKind} {n : Nat}
    (h : munchWord c cs = .token kind n) : kind ≠ .rootedName := by
  unfold munchWord at h
  simp only at h
  split at h
  · cases h; simp
  · split at h
    · cases h; simp
    · split at h <;> cases h <;> simp

/-- **A token for names starts with a character for names**, or with a separator and such a
character that both belong to it. -/
theorem munch_named {c : Char} {cs : List Char} {kind : TokenKind} {n : Nat}
    (h : munch c cs = .token kind n) (hname : kind.isName) :
    (isNameStart c ∧ kind ≠ .rootedName) ∨
      (kind = .rootedName ∧ c = '\\' ∧ 0 < n ∧ cs.head?.any isNameStart) := by
  unfold munch at h
  split at h
  · next hc => exact .inl ⟨hc, munchWord_kind h⟩
  · right
    split at h
    · cases h; simp [TokenKind.isName] at hname
    · split at h
      case h_10 =>
        simp only at h
        split at h
        · cases h; simp [TokenKind.isName] at hname
        · next hn =>
          obtain ⟨hle, hhead⟩ := segments_pos hn
          cases h
          exact ⟨rfl, rfl, by omega, hhead⟩
      case h_14 => rw [munchSlash_ne_name h] at hname; cases hname
      case h_15 => rw [munchAngle_ne_name h] at hname; cases hname
      case h_19 =>
        split at h
        · have hop := operatorToken_kind c cs
          cases h
          cases hop.symm.trans hname
        · cases h
      case h_12 =>
        simp only at h
        repeat' split at h
        all_goals
          cases h
          simp [TokenKind.isName] at hname
      all_goals
        repeat' split at h
        all_goals cases h <;> simp [TokenKind.isName] at hname

theorem htmlPiece_kind (c : Char) (cs : List Char) : (htmlPiece c cs).kind.isName = false := by
  unfold htmlPiece
  split
  · rfl
  · split <;> rfl

/-- A piece that is a name is exactly what `munch` found. -/
theorem munch_of_phpPiece_name {c : Char} {cs : List Char} (h : (phpPiece c cs).kind.isName) :
    munch c cs = .token (phpPiece c cs).kind (phpPiece c cs).tail := by
  unfold phpPiece at h ⊢
  cases found : munch c cs with
  | nothing => simp [found, TokenKind.isName] at h
  | heredoc label n =>
    simp only [found] at h
    split at h <;> cases h
  | token kind n =>
    cases kind with
    | closeTag => simp [found, TokenKind.isName] at h
    | _ => rfl

/-- The token of one step of the walk is named. -/
theorem piece_named (mode : Mode) (c : Char) (cs : List Char) (span : Span) :
    Token.Named ⟨(piece mode c cs).kind, span,
      String.ofList (c :: cs.take (piece mode c cs).tail)⟩ := by
  have found : (piece mode c cs).kind.isName →
      munch c cs = .token (piece mode c cs).kind (piece mode c cs).tail := by
    intro hname
    cases mode with
    | html => rw [piece, htmlPiece_kind] at hname; cases hname
    | php => exact munch_of_phpPiece_name hname
  constructor
  · intro hkind
    have hname : (piece mode c cs).kind.isName := by
      rcases hkind with h | h <;> simp only at h <;> rw [h] <;> rfl
    rcases munch_named (found hname) hname with ⟨hc, -⟩ | ⟨hrooted, -⟩
    · simpa [beginsName] using hc
    · simp [hrooted] at hkind
  · intro hkind
    simp only at hkind
    have hname : (piece mode c cs).kind.isName := by rw [hkind]; rfl
    rcases munch_named (found hname) hname with ⟨-, hne⟩ | ⟨-, rfl, hpos, hhead⟩
    · exact absurd hkind hne
    · refine ⟨cs.take (piece mode '\\' cs).tail, by simp, ?_⟩
      cases cs with
      | nil => simp at hhead
      | cons d ds =>
        obtain ⟨k, hk⟩ := Nat.exists_eq_succ_of_ne_zero (Nat.ne_of_gt hpos)
        simpa [hk] using hhead

/-- **The tokens of a text** have what the end of a text has, and every token of one step of the
walk. -/
theorem forall_mem_tokenize {P : Token → Prop} (heof : ∀ span, P ⟨.eof, span, ""⟩)
    (hpiece : ∀ mode c cs span, P ⟨(piece mode c cs).kind, span,
      String.ofList (c :: cs.take (piece mode c cs).tail)⟩) (text : List Char) :
    ∀ t ∈ (tokenize text).tokens, P t := by
  have hwalk : ∀ mode offset cs, ∀ item ∈ walk mode offset cs, P item.1 := by
    intro mode offset cs
    induction mode, offset, cs using walk.induct with
    | case1 mode offset =>
      rw [walk]
      exact List.forall_mem_singleton.2 (heof _)
    | case2 mode offset c cs hgap ih =>
      rw [walk, if_pos hgap]
      exact ih
    | case3 mode offset c cs hgap p lexeme stop skipped ih =>
      rw [walk, if_neg hgap]
      exact List.forall_mem_cons.2 ⟨hpiece mode c cs _, ih⟩
  intro t ht
  obtain ⟨item, hitem, rfl⟩ := List.mem_map.1 ht
  exact hwalk .html 0 text item hitem

/-- Every token of a text is named. -/
theorem tokenize_named : ∀ text : List Char, ∀ t ∈ (tokenize text).tokens, t.Named :=
  forall_mem_tokenize (fun _ => ⟨by simp, by simp⟩) piece_named

end Source

/-! ### Readers -/

namespace Declaration

open Source (beginsName beginsName_append isNameStart)

/-- Every token in a list of items is named. -/
def ItemsNamed (ts : List Item) : Prop :=
  ∀ i ∈ ts, i.token.Named

theorem ItemsNamed.suffix {ts us : List Item} (h : ItemsNamed ts) (hus : us <:+ ts) :
    ItemsNamed us :=
  fun i hi => h i (hus.subset hi)

theorem attachComments_named (pending : List Comment) (tokens : List Source.Token)
    (h : ∀ t ∈ tokens, t.Named) : ItemsNamed (attachComments pending tokens) := by
  induction tokens generalizing pending with
  | nil => simp [attachComments, ItemsNamed]
  | cons t ts ih =>
    have hts : ∀ u ∈ ts, u.Named := fun u hu => h u (List.mem_cons_of_mem t hu)
    unfold attachComments
    split
    · exact ih _ hts
    · intro i hi
      rcases List.mem_cons.1 hi with rfl | hrest
      · exact h t (by simp)
      · exact ih [] hts i hrest

/-- The text of a class name has no separator in front. -/
theorem beginsName_ofText {t : Source.Token} (h : t.Named) (hname : t.kind.isName) :
    beginsName (Name.ofText t.lexeme t.span).text := by
  unfold Name.ofText
  split
  · next cs hcs =>
    cases hkind : t.kind with
    | rootedName =>
      obtain ⟨s, hs, hhead⟩ := h.rooted hkind
      obtain rfl : cs = s := by simpa [hcs] using hs
      simpa [beginsName] using hhead
    | name | qualifiedName =>
      have hb := h.plain (by simp [hkind])
      rw [beginsName, hcs] at hb
      exact absurd hb (by simp [show isNameStart '\\' = false by decide])
    | _ => simp [hkind, Source.TokenKind.isName] at hname
  · next hcs =>
    cases hkind : t.kind with
    | rootedName =>
      obtain ⟨s, hs, -⟩ := h.rooted hkind
      exact absurd hs (hcs s)
    | name | qualifiedName => exact h.plain (by simp [hkind])
    | _ => simp [hkind, Source.TokenKind.isName] at hname

variable {env : Env} {ts : List Item}

theorem readName_yields (h : ItemsNamed ts) :
    (readName env ts).Yields fun n => beginsName n.text :=
  (Reading.yields_expect _ _ ts).map fun i ⟨hi, hname⟩ => beginsName_ofText (h i hi) hname

/-! ### Files -/

/-- **Every name that a block gives or imports begins like a name.** -/
structure NamespaceBlock.Named (b : NamespaceBlock) : Prop where
  /-- The namespace. -/
  name : ∀ n ∈ b.name, beginsName n
  /-- The full names of the imports. -/
  imports : ∀ i ∈ b.imports, beginsName i.name
  /-- The classes. -/
  classes : ∀ c ∈ b.classes, beginsName c.name.name

/-- **A new block** has at most a name, which one of the items spells. -/
theorem readNamespace_block {span : Source.Span} :
    (readNamespace env span ts).Yields fun r => r.1.imports = [] ∧ r.1.classes = [] ∧
      ∀ n ∈ r.1.name, ∃ i ∈ ts, i.kind.isName ∧
      n = (Name.ofText i.token.lexeme i.token.span).text := by
  have taken : (Reading.take? (ε := Fault) (·.kind.isName) ts).Yields fun t =>
      ∀ i ∈ t, i ∈ ts ∧ i.kind.isName := by
    refine Reading.yields_onNext (fun i us _ hi _ hname => Reading.yields_done ?_)
      (Reading.yields_done (by simp))
    rintro _ ⟨⟩
    exact ⟨hi, hname⟩
  refine Reading.Yields.andThen (P := fun name => ∀ n ∈ name, ∃ i ∈ ts, i.kind.isName ∧
    n = (Name.ofText i.token.lexeme i.token.span).text) (taken.map fun t ht n hn => ?_)
    fun name us _ _ hname => ?_
  · obtain ⟨i, hi, rfl⟩ := Option.map_eq_some_iff.1 hn
    exact ⟨i, (ht i hi).1, (ht i hi).2, rfl⟩
  · exact Reading.yields_onNext (fun _ _ _ _ _ _ => Reading.yields_done ⟨rfl, rfl, hname⟩)
      (Reading.yields_onNext (fun _ _ _ _ _ _ => Reading.yields_done ⟨rfl, rfl, hname⟩)
        (Reading.yields_fail _))

theorem readNamespace_yields {span : Source.Span} (h : ItemsNamed ts) :
    (readNamespace env span ts).Yields fun r => r.1.Named := by
  intro r hread
  obtain ⟨himports, hclasses, hname⟩ := readNamespace_block r hread
  refine ⟨fun n hn => ?_, by simp [himports], by simp [hclasses]⟩
  obtain ⟨i, hi, hkind, rfl⟩ := hname n hn
  exact beginsName_ofText (h i hi) hkind

theorem readAlias_yields {kind : ImportKind} {full : String} {name : Name} (h : beginsName full) :
    (readAlias env kind full name ts).Yields fun i => beginsName i.name :=
  Reading.yields_onNext
    (fun _ _ _ _ _ _ => (Reading.yields_true _).map fun _ _ => h)
    (Reading.yields_done h)

theorem readImportGroup_yields {kind : ImportKind} {base : String} (hbase : beginsName base)
    (ts : List Item) :
    (readImportGroup env kind base ts).Yields fun items => ∀ i ∈ items, beginsName i.name := by
  unfold readImportGroup
  split
  · exact Reading.yields_done (by simp)
  · refine (Reading.yields_true _).andThen fun _ us _ _ _ => ?_
    refine (Reading.yields_true _).andThen fun name vs _ _ _ => ?_
    refine (readAlias_yields (beginsName_append (beginsName_append hbase _) _)).andThen
      fun item ws _ _ hitem => ?_
    refine Reading.yields_onNext (fun _ xs _ _ _ _ => ?_)
      (Reading.yields_done (by simpa using hitem))
    refine (readImportGroup_yields hbase xs).map fun items hitems i hi => ?_
    rcases List.mem_cons.1 hi with rfl | hrest
    · exact hitem
    · exact hitems i hrest
termination_by ts.length
decreasing_by omega

theorem readImport_yields {kind : ImportKind} (h : ItemsNamed ts) :
    (readImport env kind ts).Yields fun items => ∀ i ∈ items, beginsName i.name := by
  refine (readName_yields h).andThen fun name us _ _ hname => ?_
  refine Reading.yields_onNext (fun _ vs _ _ _ _ => ?_)
    ((readAlias_yields hname).map fun item hitem => by simpa using hitem)
  refine (Reading.yields_true _).andThen fun _ ws _ _ _ => ?_
  refine (readImportGroup_yields hname ws).andThen fun items xs _ _ hitems => ?_
  exact (Reading.yields_true _).map fun _ _ => hitems

theorem readImportList_yields {kind : ImportKind} (ts : List Item) (h : ItemsNamed ts) :
    (readImportList env kind ts).Yields fun items => ∀ i ∈ items, beginsName i.name := by
  unfold readImportList
  refine (readImport_yields h).andThen fun items us _ hus hitems => ?_
  refine Reading.yields_onNext (fun _ vs _ _ hvs _ => ?_) (Reading.yields_done hitems)
  refine (readImportList_yields vs (h.suffix (hvs.trans hus))).map fun more hmore i hi => ?_
  rcases List.mem_append.1 hi with hi | hi
  · exact hitems i hi
  · exact hmore i hi
termination_by ts.length
decreasing_by omega

theorem readImports_yields (h : ItemsNamed ts) :
    (readImports env ts).Yields fun items => ∀ i ∈ items, beginsName i.name := by
  refine (Reading.yields_true _).andThen fun kind us _ hus _ => ?_
  refine (readImportList_yields us (h.suffix hus)).andThen fun items vs _ _ hitems => ?_
  exact (Reading.yields_true _).map fun _ _ => hitems

/-- **The name of a class** is read in its header and kept; one of the items spells it. -/
theorem readClass_name : (readClass env ts).Yields fun r =>
    ∃ i ∈ ts, i.kind = .name ∧ r.1.name.name = i.token.lexeme := by
  have header : (readHeader env ts).Yields fun c =>
      ∃ i ∈ ts, i.kind = .name ∧ c.name.name = i.token.lexeme := by
    refine (Reading.yields_true _).andThen fun _ us _ hus _ => ?_
    refine (Reading.yields_true _).andThen fun _ vs _ hvs _ => ?_
    refine (Reading.yields_true _).andThen fun kind ws _ hws _ => ?_
    have hsuffix : ws <:+ ts := hws.trans (hvs.trans hus)
    have hident : (readIdent env ws).Yields fun name =>
        ∃ i ∈ ts, i.kind = .name ∧ name.name = i.token.lexeme :=
      (Reading.yields_expect _ _ ws).map fun i ⟨hi, hkind⟩ =>
        ⟨i, hsuffix.subset hi, by simpa [isKind] using hkind, rfl⟩
    refine hident.andThen fun name _ _ _ hname => ?_
    refine (Reading.yields_true _).andThen fun _ _ _ _ _ => ?_
    refine (Reading.yields_true _).andThen fun _ _ _ _ _ => ?_
    refine (Reading.yields_true _).andThen fun _ _ _ _ _ => ?_
    exact (Reading.yields_true _).map fun _ _ => hname
  refine (header.mapError _).andThen fun c _ _ _ hc => ?_
  refine (Reading.yields_true _).andThen fun members _ _ _ _ => ?_
  exact (Reading.yields_true _).map fun _ _ => hc

theorem readClass_yields (h : ItemsNamed ts) :
    (readClass env ts).Yields fun r => beginsName r.1.name.name := by
  intro r hread
  obtain ⟨i, hi, hkind, hname⟩ := readClass_name r hread
  rw [hname]
  exact (h i hi).plain (.inl hkind)

/-! ### Blocks -/

/-- All blocks of a draft, whether they hold something or not, have a property. -/
def Draft.All (P : NamespaceBlock → Prop) (d : Draft) : Prop :=
  (∀ b ∈ d.finished, P b) ∧ P d.current

theorem Draft.All.blocks {P : NamespaceBlock → Prop} {d : Draft} (h : d.All P) :
    ∀ b ∈ d.blocks, P b := by
  intro b hb
  rcases List.mem_append.1 (List.mem_filter.1 hb).1 with hb | hb
  · exact h.1 b hb
  · exact List.mem_singleton.1 hb ▸ h.2

/-- **What statements keep of blocks**: over items with one property, every block has another. -/
structure BlocksKeep (env : Env) (I : List Item → Prop) (P : NamespaceBlock → Prop) : Prop where
  suffix : ∀ {ts us}, I ts → us <:+ ts → I us
  enter : ∀ {span ts}, I ts → (readNamespace env span ts).Yields fun r => P r.1
  addImports : ∀ {b ts}, I ts → P b →
    (readImports env ts).Yields fun items => P { b with imports := b.imports ++ items }
  addClass : ∀ {b ts}, I ts → P b →
    (readClass env ts).Yields fun r => P { b with classes := b.classes ++ [r.1] }
  leave : ∀ {b} span, P b → P { b with span }

section BlocksKeep

variable {I : List Item → Prop} {P : NamespaceBlock → Prop}

/-- **Reading statements**, by induction: every block of the draft has what is kept. -/
theorem BlocksKeep.readStatements (hkeep : BlocksKeep env I P) (d : Draft) (fresh : Bool)
    (ts : List Item) (h : I ts) (hd : d.All P) :
    (Declaration.readStatements env d fresh ts).All P := by
  have htail : ∀ {t us}, I (t :: us) → I us := fun h => hkeep.suffix h (List.suffix_cons _ _)
  have hresume : ∀ {us vs}, I us → vs <:+ us → I (resumeStatement vs).rest := fun h hvs =>
    hkeep.suffix h ((resumeStatement _).suffix.trans hvs)
  fun_induction Declaration.readStatements env d fresh ts with
  | case1 => exact hd
  | case2 d fresh t us hsep ih => exact ih (htail h) hd
  | case3 d fresh t us hsep hahead block isBraced vs suffix hread hle ih =>
    have hblock : P block := (hkeep.enter (htail h)).of_eq hread
    refine ih (hkeep.suffix (htail h) suffix) ⟨?_, hblock⟩
    exact List.forall_mem_append.2 ⟨hd.1, List.forall_mem_singleton.2 hd.2⟩
  | case4 d fresh t us hsep hahead fault vs suffix hread hle hle' ih =>
    exact ih (hresume (htail h) suffix) hd
  | case5 d fresh t us hsep hahead huse items vs suffix hread hle ih =>
    exact ih (hkeep.suffix (htail h) suffix) ⟨hd.1,
      (hkeep.addImports (htail h) hd.2).of_eq hread⟩
  | case6 d fresh t us hsep hahead huse fault vs suffix hread hle hle' ih =>
    exact ih (hresume (htail h) suffix) hd
  | case7 d fresh t us hsep hahead huse hclass c faults vs suffix hread hlt ih =>
    exact ih (hkeep.suffix h suffix) ⟨hd.1, (hkeep.addClass h hd.2).of_eq hread⟩
  | case8 d fresh t us hsep hahead huse hclass faults vs suffix hread hle hle' ih =>
    exact ih (hresume h suffix) hd
  | case9 d fresh t us hsep hahead huse hclass hopen span vs suffix hread hle ih =>
    exact ih (hkeep.suffix (htail h) suffix) hd
  | case10 => exact hd
  | case11 d fresh t us hsep hahead huse hclass hopen hclose ih =>
    refine ih (htail h) ?_
    unfold Draft.leave
    split
    · exact ⟨hd.1, hkeep.leave _ hd.2⟩
    · exact hd
  | case12 d fresh t us hsep hahead huse hclass hopen hclose ih => exact ih (htail h) hd

/-- **The blocks of a source without faults** have what is kept. -/
theorem BlocksKeep.parse {source : List Char} (hkeep : ∀ env, BlocksKeep env I P)
    (hitems : I (attachComments [] (Source.tokenize source).tokens).dropLast)
    (hfirst : ∀ span, P { name := none, span }) {file : SourceFile}
    (h : (Declaration.parse source).outcome = .ok file) : ∀ b ∈ file.blocks, P b := by
  unfold Declaration.parse at h
  simp only at h
  split at h
  · cases h
    exact ((hkeep _).readStatements _ _ _ hitems ⟨by simp, hfirst _⟩).blocks
  · cases h

end BlocksKeep

/-- **Reading statements keeps blocks named.** -/
theorem blocksKeep_named (env : Env) : BlocksKeep env ItemsNamed NamespaceBlock.Named where
  suffix := ItemsNamed.suffix
  enter h := readNamespace_yields h
  addImports h hb items hread :=
    ⟨hb.name, List.forall_mem_append.2 ⟨hb.imports, readImports_yields h items hread⟩,
      hb.classes⟩
  addClass h hb r hread :=
    ⟨hb.name, hb.imports, List.forall_mem_append.2
      ⟨hb.classes, List.forall_mem_singleton.2 (readClass_yields h r hread)⟩⟩
  leave _ hb := ⟨hb.name, hb.imports, hb.classes⟩

/-- **Every block of a source without faults is named.** -/
theorem parse_named {source : List Char} {file : SourceFile}
    (h : (parse source).outcome = .ok file) : ∀ b ∈ file.blocks, b.Named := by
  have hitems : ItemsNamed (attachComments [] (Source.tokenize source).tokens).dropLast :=
    fun i hi => attachComments_named [] _ (Source.tokenize_named source) i
      ((List.dropLast_sublist _).subset hi)
  exact BlocksKeep.parse blocksKeep_named hitems (fun _ => ⟨by simp, by simp, by simp⟩) h

end Declaration

end PhpHandbook
