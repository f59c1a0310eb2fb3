import PhpHandbook.Proofs.Accord

/-!
# Resolved types in accord

The resolution of types agrees in any two runs: what a name stands for depends on the registry and
the surroundings of a declaration, and the only trace of the run in the answer is the numbers of the
chapters that are opened on the way.

## Main statements

* `ResolvedType.text_renumber`: the printed form of a type does not show numbers.
* `Query.agree_resolve`, `Gather.agree_resolveHint`: resolving a type agrees, by induction over the
  type expression.
-/

namespace PhpHandbook.Handbook

open Declaration (TypeHint)
open DocBlock (Document TypeExpr Literal CallableParam TemplateTag)

variable {reg : Registry} {w : Tables reg}

/-! ### Types up to numbers -/

namespace ResolvedType

theorem texts_eq (ts : List ResolvedType) : texts ts = ts.map text := by
  induction ts with
  | nil => rfl
  | cons t ts ih => rw [texts, ih, List.map_cons]

theorem memberTexts_eq (ts : List ResolvedType) :
    memberTexts ts = ts.map fun t => if t.isCompound then "(" ++ t.text ++ ")" else t.text := by
  induction ts with
  | nil => rfl
  | cons t ts ih => rw [memberTexts, ih, List.map_cons]

theorem slotTexts_eq (ps : List (CallableSlot ResolvedType)) :
    slotTexts ps = ps.map slotText := by
  induction ps with
  | nil => rfl
  | cons p ps ih =>
    rw [slotTexts, ih, List.map_cons]
    rfl

variable (f : ChapterId → String → ChapterId)

theorem isCompound_renumber (t : ResolvedType) : (t.renumber f).isCompound = t.isCompound := by
  cases t <;> rfl

theorem name?_renumber (t : ResolvedType) : (t.renumber f).name? = t.name? := by
  cases t <;> rfl

theorem isSome_chapter?_renumber (t : ResolvedType) :
    (t.renumber f).chapter?.isSome = t.chapter?.isSome := by
  cases t <;> rfl

/-- **The printed form of a type does not show numbers.** -/
theorem text_renumber (t : ResolvedType) : (t.renumber f).text = t.text := by
  induction t using ResolvedType.induction with
  | named name ts ih =>
    have hts : (ts.map (renumber f)).map text = ts.map text := by simpa using ih
    simp only [renumber, text, texts_eq, renumberAll_eq, hts, List.isEmpty_map]
  | linked i name ts ih =>
    have hts : (ts.map (renumber f)).map text = ts.map text := by simpa using ih
    simp only [renumber, text, texts_eq, renumberAll_eq, hts, List.isEmpty_map]
  | template name => rfl
  | union ts ih =>
    have hts : memberTexts (ts.map (renumber f)) = memberTexts ts := by
      rw [memberTexts_eq, memberTexts_eq, List.map_map]
      exact List.map_congr_left fun t ht => by simp [isCompound_renumber, ih t ht]
    simp only [renumber, text, renumberAll_eq, hts]
  | intersection ts ih =>
    have hts : memberTexts (ts.map (renumber f)) = memberTexts ts := by
      rw [memberTexts_eq, memberTexts_eq, List.map_map]
      exact List.map_congr_left fun t ht => by simp [isCompound_renumber, ih t ht]
    simp only [renumber, text, renumberAll_eq, hts]
  | callable name ps returns ihn ihp ihr =>
    have hps : slotTexts (renumberSlots f ps) = slotTexts ps := by
      rw [slotTexts_eq, slotTexts_eq, renumberSlots_eq, List.map_map]
      exact List.map_congr_left fun p hp => by simp [slotText, ihp p hp]
    simp only [renumber, text, hps, ihn, ihr]
  | conditional subject target yes no iht ihy ihn => simp only [renumber, text, iht, ihy, ihn]

theorem listName_renumber (t : ResolvedType) : listName (t.renumber f) = listName t := by
  rw [listName, listName, name?_renumber, text_renumber]

end ResolvedType

namespace Match

/-! The forms of types take matching parts to matching types. -/

theorem named (name : String) {ts₁ ts₂ : List ResolvedType} (h : Match w ts₁ ts₂) :
    Match w (ResolvedType.named name ts₁) (.named name ts₂) :=
  h.apply (ResolvedType.named name) (fun ts => by simp [links]) fun ts => by
    show ResolvedType.renumber _ _ = .named name (ts.map _)
    rw [ResolvedType.renumber, ResolvedType.renumberAll_eq]
    rfl

theorem union {ts₁ ts₂ : List ResolvedType} (h : Match w ts₁ ts₂) :
    Match w (ResolvedType.union ts₁) (.union ts₂) :=
  h.apply ResolvedType.union (fun ts => by simp [links]) fun ts => by
    show ResolvedType.renumber _ _ = .union (ts.map _)
    rw [ResolvedType.renumber, ResolvedType.renumberAll_eq]
    rfl

theorem intersection {ts₁ ts₂ : List ResolvedType} (h : Match w ts₁ ts₂) :
    Match w (ResolvedType.intersection ts₁) (.intersection ts₂) :=
  h.apply ResolvedType.intersection (fun ts => by simp [links]) fun ts => by
    show ResolvedType.renumber _ _ = .intersection (ts.map _)
    rw [ResolvedType.renumber, ResolvedType.renumberAll_eq]
    rfl

theorem callable {n₁ n₂ r₁ r₂ : ResolvedType}
    {ps₁ ps₂ : List (CallableSlot ResolvedType)} (hn : Match w n₁ n₂)
    (hps : Match w ps₁ ps₂) (hr : Match w r₁ r₂) :
    Match w (ResolvedType.callable n₁ ps₁ r₁) (.callable n₂ ps₂ r₂) :=
  (hn.prod (hps.prod hr)).apply (fun p => ResolvedType.callable p.1 p.2.1 p.2.2)
    (fun p => by simp [links, parts]) fun p => by
      show ResolvedType.renumber _ _ = .callable _ (p.2.1.map _) _
      rw [ResolvedType.renumber, ResolvedType.renumberSlots_eq]
      rfl

theorem conditional (subject : String) {t₁ t₂ y₁ y₂ n₁ n₂ : ResolvedType}
    (ht : Match w t₁ t₂) (hy : Match w y₁ y₂) (hn : Match w n₁ n₂) :
    Match w (ResolvedType.conditional subject t₁ y₁ n₁)
      (.conditional subject t₂ y₂ n₂) :=
  (ht.prod (hy.prod hn)).apply (fun p => ResolvedType.conditional subject p.1 p.2.1 p.2.2)
    (fun p => by simp [links]) fun _ => rfl

/-- A reference to a chapter carries its number and its name. -/
theorem linked {c₁ c₂ : Chapter reg} {ts₁ ts₂ : List ResolvedType} (hc : Match w c₁ c₂)
    (hts : Match w ts₁ ts₂) :
    Match w (ResolvedType.linked c₁.id c₁.name ts₁) (.linked c₂.id c₂.name ts₂) :=
  (hc.prod hts).apply (fun p => ResolvedType.linked p.1.id p.1.name p.2)
    (fun p => by simp [links]) fun p => by
      show ResolvedType.renumber _ _ = .linked _ _ (p.2.map _)
      rw [ResolvedType.renumber, ResolvedType.renumberAll_eq]
      rfl

/-- A type without references, such as a bare name, matches itself. -/
theorem plain (name : String) : Match w (ResolvedType.plain name) (.plain name) :=
  nil.named name

theorem template (name : String) : Match w (ResolvedType.template name) (.template name) :=
  ⟨by simp [Valid, links], by simp [Valid, links], rfl⟩

end Match

/-! ### Names -/

theorem Gather.agree_reference (name : String) {ts₁ ts₂ : List ResolvedType}
    (h : Match w ts₁ ts₂) :
    Gather.Agree w (reference name ts₁ : Gather reg ResolvedType) (reference name ts₂) := by
  unfold reference
  cases reg.find? name with
  | none => exact .pure (h.named _)
  | some e =>
    refine .bind_chapterOf ?_
    rintro w' hle c₁ c₂ rfl hc
    have hname : c₂.name = c₁.name := by rw [Chapter.name, Chapter.name, hc.entry_eq]
    have hlinked := hc.linked (h.mono hle)
    rw [hname] at hlinked
    exact .pure hlinked

theorem Gather.agree_resolveName (r : Resolver) (doc : Option Document) (name : String)
    {ts₁ ts₂ : List ResolvedType} (h : Match w ts₁ ts₂) :
    Gather.Agree w (r.resolveName doc name ts₁ : Gather reg ResolvedType)
      (r.resolveName doc name ts₂) := by
  unfold Resolver.resolveName
  by_cases hbound : (r.isBound doc (Registry.unrooted name) ||
      r.isBound doc (r.complete reg (Registry.unrooted name))) = true
  · simp only [hbound, if_true]
    exact .pure (.template _)
  · simp only [hbound, if_false, Bool.false_eq_true]
    exact agree_reference _ h

theorem Gather.agree_callableName (name : String) :
    Gather.Agree w (Resolver.callableName name : Gather reg ResolvedType)
      (Resolver.callableName name) := by
  unfold Resolver.callableName
  split
  · exact agree_reference _ .nil
  · exact .pure (.plain name)

/-! ### Type expressions -/

mutual

/-- **Resolving a type expression agrees.** -/
theorem Query.agree_resolve (r : Resolver) (doc : Option Document) (w : Tables reg) :
    (t : TypeExpr) → Query.Agree w (r.resolve doc t : Query reg ResolvedType) (r.resolve doc t)
  | .identifier name => .gathered (Gather.agree_resolveName r doc name .nil)
  | .generic base args => by
    rw [Resolver.resolve]
    exact (agree_resolveAll r doc w args).bind fun w' _ ts₁ ts₂ hts =>
      .gathered (Gather.agree_resolveName r doc base hts)
  | .union members => by
    rw [Resolver.resolve]
    exact (agree_resolveAll r doc w members).map fun _ _ _ _ hts => hts.union
  | .intersection members => by
    rw [Resolver.resolve]
    exact (agree_resolveAll r doc w members).map fun _ _ _ _ hts => hts.intersection
  | .nullable inner => by
    rw [Resolver.resolve]
    exact (agree_resolve r doc w inner).bind fun _ _ _ _ ht =>
      .pure (ht.cons (Match.cons (.plain _) .nil)).union
  | .array inner => by
    rw [Resolver.resolve]
    exact (agree_resolve r doc w inner).bind fun _ _ _ _ ht => .pure ((ht.cons .nil).named _)
  | .literal (.integer value) => .gathered (Gather.agree_resolveName r doc value .nil)
  | .literal (.string value) => .gathered (Gather.agree_resolveName r doc value .nil)
  | .literal (.decimal value) => .throw _
  | .literal (.classConstant className name) => .throw _
  | .arrayShape kind items isSealed => .pure (.plain _)
  | .objectShape items => .pure (.plain _)
  | .this => .pure (.plain _)
  | .conditional subject negated target yes no => by
    rw [Resolver.resolve]
    refine (agree_resolve r doc w target).bind fun w₁ hle₁ t₁ t₂ ht => ?_
    refine (agree_resolve r doc w₁ yes).bind fun w₂ hle₂ y₁ y₂ hy => ?_
    refine (agree_resolve r doc w₂ no).bind fun w₃ hle₃ n₁ n₂ hn => ?_
    have ht := ht.mono (hle₂.trans hle₃)
    have hy := hy.mono hle₃
    -- a negated conditional swaps its branches in both runs
    cases negated
    · exact .pure (ht.conditional _ hy hn)
    · exact .pure (ht.conditional _ hn hy)
  | .callable name params returns => by
    rw [Resolver.resolve]
    refine (Query.Agree.gathered (Gather.agree_callableName name)).bind
      fun w₁ hle₁ n₁ n₂ hn => ?_
    refine (agree_resolveParams r doc w₁ params).bind fun w₂ hle₂ ps₁ ps₂ hps => ?_
    refine (agree_resolve r doc w₂ returns).bind fun w₃ hle₃ r₁ r₂ hr => ?_
    exact .pure ((hn.mono (hle₂.trans hle₃)).callable (hps.mono hle₃) hr)
  | .offset base key => .throw _

theorem Query.agree_resolveAll (r : Resolver) (doc : Option Document) (w : Tables reg) :
    (ts : List TypeExpr) →
      Query.Agree w (r.resolveAll doc ts : Query reg (List ResolvedType)) (r.resolveAll doc ts)
  | [] => .pure .nil
  | t :: ts => by
    rw [Resolver.resolveAll]
    refine (agree_resolve r doc w t).bind fun w₁ hle₁ t₁ t₂ ht => ?_
    refine (agree_resolveAll r doc w₁ ts).bind fun w₂ hle₂ ts₁ ts₂ hts => ?_
    exact .pure ((ht.mono hle₂).cons hts)

theorem Query.agree_resolveParams (r : Resolver) (doc : Option Document) (w : Tables reg) :
    (ps : List (CallableParam TypeExpr)) →
      Query.Agree w (r.resolveParams doc ps : Query reg (List (CallableSlot ResolvedType)))
        (r.resolveParams doc ps)
  | [] => .pure .nil
  | ⟨type, byRef, variadic, _, _⟩ :: ps => by
    rw [Resolver.resolveParams]
    refine (agree_resolve r doc w type).bind fun w₁ hle₁ t₁ t₂ ht => ?_
    refine (agree_resolveParams r doc w₁ ps).bind fun w₂ hle₂ ps₁ ps₂ hps => ?_
    exact .pure (Match.cons (.of_parts (ht.mono hle₂) fun _ => rfl) hps)

end

/-! ### Native types -/

mutual

/-- **Resolving a native type agrees.** -/
theorem Gather.agree_resolveHint (r : Resolver) (w : Tables reg) :
    (t : TypeHint) → Gather.Agree w (r.resolveHint t : Gather reg ResolvedType) (r.resolveHint t)
  | .named name _ => agree_reference _ .nil
  | .nullable inner _ => by
    rw [Resolver.resolveHint]
    exact (agree_resolveHint r w inner).bind fun _ _ _ _ ht =>
      .pure (ht.cons (Match.cons (.plain _) .nil)).union
  | .union members _ => by
    rw [Resolver.resolveHint]
    exact (agree_resolveHints r w members).map fun _ _ _ _ hts => hts.union
  | .intersection members _ => by
    rw [Resolver.resolveHint]
    exact (agree_resolveHints r w members).map fun _ _ _ _ hts => hts.intersection

theorem Gather.agree_resolveHints (r : Resolver) (w : Tables reg) :
    (ts : List TypeHint) →
      Gather.Agree w (r.resolveHints ts : Gather reg (List ResolvedType)) (r.resolveHints ts)
  | [] => .pure .nil
  | t :: ts => by
    rw [Resolver.resolveHints]
    refine (agree_resolveHint r w t).bind fun w₁ hle₁ t₁ t₂ ht => ?_
    refine (agree_resolveHints r w₁ ts).bind fun w₂ hle₂ ts₁ ts₂ hts => ?_
    exact .pure ((ht.mono hle₂).cons hts)

end

theorem Gather.agree_resolveHint? (r : Resolver) (hint : Option TypeHint) :
    Gather.Agree w (r.resolveHint? hint : Gather reg ResolvedType) (r.resolveHint? hint) := by
  cases hint with
  | none => exact .pure (.plain _)
  | some hint => exact agree_resolveHint r w hint

/-! ### Resolvers and templates -/

theorem Gather.agree_resolverWith (e : reg.Entry) (templates : List String) :
    Gather.Agree w (resolverWith e templates) (resolverWith e templates) :=
  (agree_surroundingsOf e).bind_eq fun _ _ _ => .pure (.refl _)

theorem Gather.agree_resolverOf (e : reg.Entry) :
    Gather.Agree w (resolverOf e) (resolverOf e) :=
  (agree_readComment _).bind_eq fun _ _ _ => agree_resolverWith e _

theorem Query.agree_resolveIf (r : Resolver) (doc : Option Document) (type : Option TypeExpr) :
    Query.Agree w (resolveIf r doc type : Query reg (Option ResolvedType))
      (resolveIf r doc type) := by
  cases type with
  | none => exact .pure .none
  | some type => exact (agree_resolve r doc w type).map fun _ _ _ _ ht => ht.some

theorem Gather.agree_resolveHintIf (r : Resolver) (hint : Option TypeHint) :
    Gather.Agree w (resolveHintIf r hint : Gather reg (Option ResolvedType))
      (resolveHintIf r hint) := by
  cases hint with
  | none => exact .pure .none
  | some hint => exact (agree_resolveHint r w hint).map fun _ _ _ _ ht => ht.some

theorem Query.agree_resolveTemplates (r : Resolver) (doc : Option Document)
    (tags : List TemplateTag) :
    Query.Agree w (resolveTemplates r doc tags : Query reg (List Template))
      (resolveTemplates r doc tags) := by
  refine .mapM tags fun tag _ => ?_
  refine (agree_resolveIf r doc tag.bound).bind fun w₁ hle₁ b₁ b₂ hb => ?_
  refine (agree_resolveIf r doc tag.fallback).bind fun w₂ hle₂ f₁ f₂ hf => ?_
  exact .pure (.of_parts ((hb.mono hle₂).prod hf) fun _ => rfl)

end PhpHandbook.Handbook
