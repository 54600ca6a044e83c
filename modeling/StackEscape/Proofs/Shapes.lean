import StackEscape.Proofs.FiledParams

/-!
# Well-shaped types

A type is well-shaped if nothing that occurs in it is an array of stack-only elements, or a generic
instantiated with a stack-only type where none is admitted. The check of a type looks for just that, at
every depth. What is well-shaped when all type parameters are filed stays so.

## Main definitions

* `StackEscape.TypeRef.occurring` — all types that occur in a type.
* `StackEscape.TypeEnv.WellShaped` — every one of them may be written.
* `StackEscape.Program.Entered` — the type parameters of all types are filed.

## Main results

* `StackEscape.TypeEnv.typeErrors_eq_nil_iff` — the check of a type finds nothing if and only if the
  type is well-shaped.
* `StackEscape.TypeEnv.wellShaped_within` — later tables say the same.
-/

set_option autoImplicit false

namespace StackEscape

namespace TypeRef

mutual

/-- The types that occur in a type, itself first. -/
def occurring : TypeRef → List TypeRef
  | .array elem => .array elem :: occurring elem
  | .named name args => .named name args :: occurringAll args
  | .void => [.void]
  | .primitive name => [.primitive name]
  | .object => [.object]
  | .dynamic => [.dynamic]
  | .param name => [.param name]

/-- The types that occur in some types. -/
def occurringAll : List TypeRef → List TypeRef
  | [] => []
  | ty :: tys => occurring ty ++ occurringAll tys

end

end TypeRef

namespace TypeEnv

/-! ## The check of a type -/

/-- May a type of these elements or these type arguments be written? -/
def Allows (env : TypeEnv) : TypeRef → Prop
  | .array elem => env.stackOnly elem = false
  | .named name args => ∀ decl ∈ env.program.typeDecl? name, ∀ x ∈ decl.typeParams.zip args,
      env.stackOnly x.2 = true → env.admits name x.1 = true ∧ env.runtime = true
  | _ => True

/-- Every type that occurs in the type may be written. -/
def WellShaped (env : TypeEnv) (ty : TypeRef) : Prop := ∀ t ∈ ty.occurring, env.Allows t

variable {env : TypeEnv}

/-- Nothing is wrong with a type argument that is not stack-only, or that is admitted. -/
theorem argError_eq_none_iff {generic owner : String} {q : TypeParam} {arg : TypeRef} :
    env.argError generic owner q arg = none ↔
      (env.stackOnly arg = true → env.admits owner q = true ∧ env.runtime = true) := by
  unfold argError
  cases env.stackOnly arg <;> cases env.admits owner q <;> cases env.runtime <;> simp

/-- Nothing is wrong with some type arguments if nothing is wrong with any of them. -/
theorem argErrors_eq_nil_iff {generic owner : String} {qs : List TypeParam} {args : List TypeRef}
    {span : Span} :
    env.argErrors generic owner qs args span = [] ↔ ∀ x ∈ qs.zip args,
      env.stackOnly x.2 = true → env.admits owner x.1 = true ∧ env.runtime = true := by
  simp [argErrors, argError_eq_none_iff]

mutual

/-- **The check of a type.** It finds nothing if and only if the type is well-shaped. -/
theorem typeErrors_eq_nil_iff {span : Span} : (ty : TypeRef) →
    (env.typeErrors span ty = [] ↔ env.WellShaped ty)
  | .array elem => by
    have ih : env.typeErrors span elem = [] ↔ ∀ t ∈ elem.occurring, env.Allows t :=
      typeErrors_eq_nil_iff elem
    simp [typeErrors, WellShaped, TypeRef.occurring, Allows, ih]
  | .named name args => by
    have ih : env.allTypeErrors span args = [] ↔ ∀ t ∈ TypeRef.occurringAll args, env.Allows t :=
      allTypeErrors_eq_nil_iff args
    cases hdecl : env.program.typeDecl? name <;>
      simp [typeErrors, WellShaped, TypeRef.occurring, Allows, ih, argErrors_eq_nil_iff, hdecl]
  | .void | .primitive _ | .object | .dynamic | .param _ => by
    simp [typeErrors, WellShaped, TypeRef.occurring, Allows]

theorem allTypeErrors_eq_nil_iff {span : Span} : (tys : List TypeRef) →
    (env.allTypeErrors span tys = [] ↔ ∀ t ∈ TypeRef.occurringAll tys, env.Allows t)
  | [] => by simp [allTypeErrors, TypeRef.occurringAll]
  | ty :: tys => by
    have ih : env.typeErrors span ty = [] ↔ ∀ t ∈ ty.occurring, env.Allows t :=
      typeErrors_eq_nil_iff ty
    have ihs : env.allTypeErrors span tys = [] ↔ ∀ t ∈ TypeRef.occurringAll tys, env.Allows t :=
      allTypeErrors_eq_nil_iff tys
    simp only [allTypeErrors, List.append_eq_nil_iff, ih, ihs, TypeRef.occurringAll,
      List.forall_mem_append]

end

instance (env : TypeEnv) (ty : TypeRef) : Decidable (env.WellShaped ty) :=
  decidable_of_iff (env.typeErrors .zero ty = []) (typeErrors_eq_nil_iff ty)

end TypeEnv

/-! ## Later tables -/

namespace Program

/-- The type parameters of all types have a capability. -/
def Entered (p : Program) (caps : Capabilities) : Prop :=
  ∀ t ∈ p.types, ∀ q ∈ t.typeParams, (caps.get? ⟨t.name, q.name⟩).isSome

variable {p : Program} {c d : Capabilities}

theorem Entered.within (h : p.Entered c) (hcd : c.Within d) : p.Entered d :=
  fun t ht q hq => hcd.isSome (h t ht q hq)

/-- The check of declarations files them. -/
theorem entered_checkDeclarations (hparts : p.AlignedParts) (runtime : Bool) :
    p.Entered (p.checkDeclarations runtime .empty).1 :=
  fun _ ht _ hq => isSome_of_typeParam hparts runtime ht hq

end Program

namespace TypeEnv

variable {p : Program} {c d : Capabilities} {g : GenericScope}

/-- Later tables say the same of whether a type is stack-only. -/
theorem stackOnly_within (runtime : Bool) (hg : g.Filed c) (hcd : c.Within d) (ty : TypeRef) :
    TypeEnv.stackOnly ⟨p, c, g, runtime⟩ ty = TypeEnv.stackOnly ⟨p, d, g, runtime⟩ ty := by
  unfold stackOnly
  rw [capability_of_filed runtime hg hcd]

/-- Later tables say the same of what a type parameter admits. -/
theorem admits_within (runtime : Bool) (hp : p.Entered c) (hcd : c.Within d) {name : String}
    {decl : TypeDecl} (hdecl : p.typeDecl? name = some decl) {q : TypeParam}
    (hq : q ∈ decl.typeParams) :
    TypeEnv.admits ⟨p, c, g, runtime⟩ name q = TypeEnv.admits ⟨p, d, g, runtime⟩ name q := by
  have hname : decl.name = name := by simpa using List.find?_some hdecl
  obtain ⟨v, hv⟩ :=
    Option.isSome_iff_exists.1 (hp decl (List.mem_of_find?_eq_some hdecl) q hq)
  rw [hname] at hv
  simp only [admits, hv, hcd _ v hv]

/-- Later tables say the same of whether a type is well-shaped. -/
theorem wellShaped_within (runtime : Bool) (hg : g.Filed c) (hp : p.Entered c) (hcd : c.Within d)
    (ty : TypeRef) :
    TypeEnv.WellShaped ⟨p, c, g, runtime⟩ ty ↔ TypeEnv.WellShaped ⟨p, d, g, runtime⟩ ty := by
  refine forall₂_congr fun t _ => ?_
  cases t with
  | array elem =>
    simp only [Allows]
    rw [stackOnly_within runtime hg hcd]
  | named name args =>
    refine forall₂_congr fun decl hdecl => forall₂_congr fun x hx => ?_
    rw [stackOnly_within runtime hg hcd,
      admits_within runtime hp hcd hdecl (List.of_mem_zip hx).1]
  | _ => rfl

end TypeEnv

end StackEscape
