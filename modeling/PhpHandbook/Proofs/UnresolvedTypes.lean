import Mathlib.Logic.Relation
import PhpHandbook.Handbook.Resolver

/-!
# Types without a resolved form

Three kinds of type expressions have no resolved form: decimal literals, class constants, and
offsets into a type.  One of them anywhere in a type makes the whole type unresolvable, except where
the type around it is only printed and never looked into: in the entries of a shape, and in what a
conditional asks about.

Resolving a type goes through its parts from left to right and stops at the first one that has no
resolved form, so the error tells which one that is.  It does not matter what the run has gathered
before, in which declaration the type stands, or which templates are bound there.

## Main definitions

* `TypeExpr.exposedParts`, `TypeExpr.Exposed`: the parts of a type that are looked into, and theirs.
* `TypeExpr.exposed`: all of them in a list, from left to right.
* `formless?`: the error for a type expression without a resolved form.
* `Query.FailsWith`: how a query fails in every run.

## Main statements

* `TypeExpr.mem_exposed_iff`: the list has all types in exposed positions.
* `Query.failsWith_resolve`: how resolving fails, by induction over the type expression.
* `resolve_error_iff`: resolving fails exactly on exposed types without a resolved form, and with
  the first of them.
-/

namespace PhpHandbook.DocBlock.TypeExpr

/-! ### Exposed positions -/

/-- The parts of a type expression that are looked into, from left to right. -/
def exposedParts : TypeExpr → List TypeExpr
  | .generic _ args => args
  | .union members | .intersection members => members
  | .nullable inner | .array inner => [inner]
  | .conditional _ _ target yes no => [target, yes, no]
  | .callable _ params returns => params.map (·.type) ++ [returns]
  | .identifier _ | .offset .. | .arrayShape .. | .objectShape _ | .literal _ | .this => []

/-- **A type in an exposed position** of another one: the type itself, a part, or a part of a
part. -/
def Exposed : TypeExpr → TypeExpr → Prop :=
  Relation.ReflTransGen fun t part => part ∈ t.exposedParts

mutual

/-- **A type and all types in exposed positions of it**, each in front of those inside it. -/
def exposed : TypeExpr → List TypeExpr
  | .generic base args => .generic base args :: exposedAll args
  | .union members => .union members :: exposedAll members
  | .intersection members => .intersection members :: exposedAll members
  | .nullable inner => .nullable inner :: inner.exposed
  | .array inner => .array inner :: inner.exposed
  | .conditional subject negated target yes no =>
    .conditional subject negated target yes no :: (target.exposed ++ yes.exposed ++ no.exposed)
  | .callable name params returns =>
    .callable name params returns :: (exposedParams params ++ returns.exposed)
  | .identifier name => [.identifier name]
  | .offset base key => [.offset base key]
  | .arrayShape kind items isSealed => [.arrayShape kind items isSealed]
  | .objectShape items => [.objectShape items]
  | .literal value => [.literal value]
  | .this => [.this]

/-- Several types and all types in exposed positions of them. -/
def exposedAll : List TypeExpr → List TypeExpr
  | [] => []
  | t :: ts => t.exposed ++ exposedAll ts

/-- The types of parameters and all types in exposed positions of them. -/
def exposedParams : List (CallableParam TypeExpr) → List TypeExpr
  | [] => []
  | ⟨type, _, _, _, _⟩ :: params => type.exposed ++ exposedParams params

end

theorem exposedAll_eq (ts : List TypeExpr) : exposedAll ts = ts.flatMap exposed := by
  induction ts with
  | nil => rfl
  | cons t ts ih => rw [exposedAll, ih, List.flatMap_cons]

theorem exposedParams_eq (params : List (CallableParam TypeExpr)) :
    exposedParams params = (params.map (·.type)).flatMap exposed := by
  induction params with
  | nil => rfl
  | cons p params ih => rw [exposedParams, ih, List.map_cons, List.flatMap_cons]

/-- What is exposed in a type is the type itself and what is exposed in its parts. -/
theorem exposed_eq (t : TypeExpr) : t.exposed = t :: t.exposedParts.flatMap exposed := by
  cases t with
  | generic base args => rw [exposed, exposedAll_eq, exposedParts]
  | union members => rw [exposed, exposedAll_eq, exposedParts]
  | intersection members => rw [exposed, exposedAll_eq, exposedParts]
  | conditional subject negated target yes no => simp [exposed, exposedParts]
  | callable name params returns => simp [exposed, exposedParts, exposedParams_eq]
  | nullable inner => simp [exposed, exposedParts]
  | array inner => simp [exposed, exposedParts]
  | _ => rfl

/-- Parts are smaller than what they are parts of. -/
theorem sizeOf_lt_of_mem_exposedParts {t part : TypeExpr} (h : part ∈ t.exposedParts) :
    sizeOf part < sizeOf t := by
  cases t with
  | generic base args =>
    have : sizeOf part < sizeOf args := List.sizeOf_lt_of_mem h
    simp only [generic.sizeOf_spec]
    omega
  | union members =>
    have : sizeOf part < sizeOf members := List.sizeOf_lt_of_mem h
    simp only [union.sizeOf_spec]
    omega
  | intersection members =>
    have : sizeOf part < sizeOf members := List.sizeOf_lt_of_mem h
    simp only [intersection.sizeOf_spec]
    omega
  | conditional subject negated target yes no =>
    simp only [exposedParts, List.mem_cons, List.not_mem_nil, or_false] at h
    simp only [conditional.sizeOf_spec]
    rcases h with rfl | rfl | rfl <;> omega
  | callable name params returns =>
    simp only [callable.sizeOf_spec]
    rcases List.mem_append.1 h with h | h
    · obtain ⟨p, hp, rfl⟩ := List.mem_map.1 h
      have := List.sizeOf_lt_of_mem hp
      cases p
      simp only [CallableParam.mk.sizeOf_spec] at this ⊢
      omega
    · rw [List.mem_singleton.1 h]
      omega
  | nullable inner =>
    rw [List.mem_singleton.1 h]
    simp
  | array inner =>
    rw [List.mem_singleton.1 h]
    simp
  | _ => cases h

/-- **The list has all types in exposed positions.** -/
theorem mem_exposed_iff {t part : TypeExpr} : part ∈ t.exposed ↔ t.Exposed part := by
  rw [exposed_eq, List.mem_cons, List.mem_flatMap]
  constructor
  · rintro (rfl | ⟨next, hnext, hpart⟩)
    · exact .refl
    · exact .head hnext (mem_exposed_iff.1 hpart)
  · intro h
    rcases Relation.ReflTransGen.cases_head h with rfl | ⟨next, hnext, hpart⟩
    · exact .inl rfl
    · exact .inr ⟨next, hnext, mem_exposed_iff.2 hpart⟩
termination_by sizeOf t
decreasing_by all_goals exact sizeOf_lt_of_mem_exposedParts hnext

end PhpHandbook.DocBlock.TypeExpr

namespace PhpHandbook.Handbook

open DocBlock (Document TypeExpr CallableParam)
open DocBlock.TypeExpr (exposed exposedAll exposedParams)

variable {reg : Registry} {α β : Type}

/-! ### Queries that fail -/

namespace Query

/-- **How a query fails** in every run: with the given error, or not at all. -/
def FailsWith (q : Query reg α) (fault : Option ResolveError) : Prop :=
  ∀ (run : Run reg) (e : ResolveError), (q.run.run run).1 = .error e ↔ fault = some e

theorem failsWith_pure (a : α) : FailsWith (pure a : Query reg α) none :=
  fun _ _ => ⟨nofun, nofun⟩

theorem failsWith_throw (e : ResolveError) : FailsWith (throw e : Query reg α) (some e) :=
  fun _ _ => ⟨fun h => congrArg some (Except.error.inj h),
    fun h => congrArg Except.error (Option.some.inj h)⟩

theorem failsWith_gathered (g : Gather reg α) : FailsWith (gathered g) none :=
  fun _ _ => ⟨nofun, nofun⟩

/-- **One query after another**: if the first fails, the second is not asked. -/
theorem FailsWith.bind {q : Query reg α} {k : α → Query reg β}
    {fault fault' : Option ResolveError} (h : FailsWith q fault)
    (hk : ∀ a, FailsWith (k a) fault') :
    FailsWith (q >>= k) (fault.or fault') := by
  intro run e
  have hfirst := h run
  simp only [ExceptT.run_bind, StateT.run_bind]
  rcases hq : q.run.run run with ⟨e' | a, run'⟩
  all_goals rw [hq] at hfirst
  · obtain rfl : fault = some e' := (hfirst e').1 rfl
    exact failsWith_throw (α := β) e' run' e
  · obtain rfl : fault = none :=
      Option.eq_none_iff_forall_ne_some.2 fun e' he' => nomatch (hfirst e').2 he'
    exact hk a run' e

theorem FailsWith.map {q : Query reg α} {fault : Option ResolveError} (h : FailsWith q fault)
    (f : α → β) : FailsWith (f <$> q) fault := by
  rw [map_eq_pure_bind, ← Option.or_none (o := fault)]
  exact h.bind fun a => failsWith_pure (f a)

end Query

/-! ### Resolving -/

/-- **The error for a type expression without a resolved form.** -/
def formless? : TypeExpr → Option ResolveError
  | .literal (.decimal value) =>
    some ⟨"float literal type", (TypeExpr.literal (.decimal value)).text⟩
  | .literal (.classConstant className name) =>
    some ⟨"class constant type", (TypeExpr.literal (.classConstant className name)).text⟩
  | .offset base key => some ⟨"offset access type", (TypeExpr.offset base key).text⟩
  | _ => none

/-- The error for the first of several type expressions that has no resolved form. -/
def firstFormless? (ts : List TypeExpr) : Option ResolveError :=
  ts.findSome? formless?

theorem firstFormless?_cons {t : TypeExpr} (ht : formless? t = none) (ts : List TypeExpr) :
    firstFormless? (t :: ts) = firstFormless? ts := by
  rw [firstFormless?, List.findSome?_cons, ht, firstFormless?]

theorem firstFormless?_append (ts us : List TypeExpr) :
    firstFormless? (ts ++ us) = (firstFormless? ts).or (firstFormless? us) :=
  List.findSome?_append

namespace Query

mutual

/-- **How resolving a type expression fails.** -/
theorem failsWith_resolve (r : Resolver) (doc : Option Document) :
    (t : TypeExpr) →
      FailsWith (r.resolve doc t : Query reg ResolvedType) (firstFormless? t.exposed)
  | .identifier name => failsWith_gathered _
  | .generic base args => by
    rw [Resolver.resolve, exposed, firstFormless?_cons rfl,
      ← Option.or_none (o := firstFormless? _)]
    exact (failsWith_resolveAll r doc args).bind fun _ => failsWith_gathered _
  | .union members => by
    rw [Resolver.resolve, exposed, firstFormless?_cons rfl]
    exact (failsWith_resolveAll r doc members).map _
  | .intersection members => by
    rw [Resolver.resolve, exposed, firstFormless?_cons rfl]
    exact (failsWith_resolveAll r doc members).map _
  | .nullable inner => by
    rw [Resolver.resolve, exposed, firstFormless?_cons rfl,
      ← Option.or_none (o := firstFormless? _)]
    exact (failsWith_resolve r doc inner).bind fun _ => failsWith_pure _
  | .array inner => by
    rw [Resolver.resolve, exposed, firstFormless?_cons rfl,
      ← Option.or_none (o := firstFormless? _)]
    exact (failsWith_resolve r doc inner).bind fun _ => failsWith_pure _
  | .literal (.integer value) => failsWith_gathered _
  | .literal (.string value) => failsWith_gathered _
  | .literal (.decimal value) => failsWith_throw _
  | .literal (.classConstant className name) => failsWith_throw _
  | .arrayShape kind items isSealed => failsWith_pure _
  | .objectShape items => failsWith_pure _
  | .this => failsWith_pure _
  | .conditional subject negated target yes no => by
    rw [Resolver.resolve, exposed, firstFormless?_cons rfl, firstFormless?_append,
      firstFormless?_append, Option.or_assoc, ← Option.or_none (o := firstFormless? no.exposed)]
    -- the branches change places only after both of them have been resolved
    exact (failsWith_resolve r doc target).bind fun _ => (failsWith_resolve r doc yes).bind
      fun _ => (failsWith_resolve r doc no).bind fun _ => failsWith_pure _
  | .callable name params returns => by
    rw [Resolver.resolve, exposed, firstFormless?_cons rfl, firstFormless?_append,
      ← Option.or_none (o := firstFormless? returns.exposed),
      ← Option.none_or (o := Option.or _ _)]
    exact (failsWith_gathered _).bind fun _ => (failsWith_resolveParams r doc params).bind
      fun _ => (failsWith_resolve r doc returns).bind fun _ => failsWith_pure _
  | .offset base key => failsWith_throw _

theorem failsWith_resolveAll (r : Resolver) (doc : Option Document) :
    (ts : List TypeExpr) →
      FailsWith (r.resolveAll doc ts : Query reg (List ResolvedType))
        (firstFormless? (exposedAll ts))
  | [] => failsWith_pure _
  | t :: ts => by
    rw [Resolver.resolveAll, exposedAll, firstFormless?_append,
      ← Option.or_none (o := firstFormless? (exposedAll ts))]
    exact (failsWith_resolve r doc t).bind fun _ => (failsWith_resolveAll r doc ts).bind
      fun _ => failsWith_pure _

theorem failsWith_resolveParams (r : Resolver) (doc : Option Document) :
    (params : List (CallableParam TypeExpr)) →
      FailsWith (r.resolveParams doc params : Query reg (List (CallableSlot ResolvedType)))
        (firstFormless? (exposedParams params))
  | [] => failsWith_pure _
  | ⟨type, byRef, variadic, _, _⟩ :: params => by
    rw [Resolver.resolveParams, exposedParams, firstFormless?_append,
      ← Option.or_none (o := firstFormless? (exposedParams params))]
    exact (failsWith_resolve r doc type).bind fun _ => (failsWith_resolveParams r doc params).bind
      fun _ => failsWith_pure _

end

end Query

/-- **Resolving fails exactly on exposed types without a resolved form.**  At every declaration,
with any templates and in any run, a type expression cannot be resolved if and only if a decimal
literal, a class constant or an offset is in an exposed position of it.  The error is that of the
first of these from left to right, with its printed form; of a conditional the target comes first,
then the branch written first, whether or not it is negated. -/
theorem resolve_error_iff (r : Resolver) (doc : Option Document) (t : TypeExpr) (run : Run reg) :
    ((∃ e, ((r.resolve doc t : Query reg ResolvedType).run.run run).1 = .error e) ↔
        ∃ part, t.Exposed part ∧ (formless? part).isSome) ∧
      ∀ e, ((r.resolve doc t : Query reg ResolvedType).run.run run).1 = .error e ↔
        t.exposed.findSome? formless? = some e := by
  have hfails := Query.failsWith_resolve r doc t run
  refine ⟨?_, hfails⟩
  calc (∃ e, ((r.resolve doc t : Query reg ResolvedType).run.run run).1 = .error e)
      ↔ (t.exposed.findSome? formless?).isSome := by
        rw [Option.isSome_iff_exists]
        exact exists_congr hfails
    _ ↔ ∃ part, t.Exposed part ∧ (formless? part).isSome := by
        rw [List.findSome?_isSome_iff]
        exact exists_congr fun part => and_congr_left' TypeExpr.mem_exposed_iff

end PhpHandbook.Handbook
