import StackEscape.Proofs.OrdinaryRuns

/-!
# Runtimes that lack support

The check of declarations asks the runtime in two places: where a clause has the marker, and where a
stack-only type argument is admitted. On a runtime that lacks support each of them adds an error of its own
family, and it does nothing else. So if those errors are taken away from a state of the pass, what is left
is the state that the pass has on a runtime with support.

## Main definitions

* `StackEscape.apartFromRuntime` — errors without those that concern the runtime.
* `StackEscape.Declarations.State.apartFromRuntime` — a state without them.

## Main results

* `StackEscape.TypeEnv.apart_typeErrors`, `StackEscape.TypeParam.apart_clauseErrors` — the two places.
* `StackEscape.Declarations.checkMember_apart`, `checkPart_apart` — the steps of the pass.
* `StackEscape.Program.checkDeclarations_apart` — the whole pass on both runtimes.
-/

set_option autoImplicit false

namespace StackEscape

/-! ## Errors that concern the runtime -/

/-- The errors but for those that concern the runtime, in the same order. -/
def apartFromRuntime (errors : List TypeError) : List TypeError :=
  errors.filter fun e => decide (e.errorClass ≠ .runtimeCapability)

section ApartFromRuntime

variable {errors : List TypeError}

@[simp] theorem apart_nil : apartFromRuntime [] = [] := rfl

@[simp] theorem apart_append (as bs : List TypeError) :
    apartFromRuntime (as ++ bs) = apartFromRuntime as ++ apartFromRuntime bs :=
  List.filter_append ..

theorem apart_flatMap {β : Type} (l : List β) (f : β → List TypeError) :
    apartFromRuntime (l.flatMap f) = l.flatMap fun b => apartFromRuntime (f b) :=
  List.filter_flatMap ..

theorem errorClass_of_mem_apart {e : TypeError} (he : e ∈ apartFromRuntime errors) :
    e.errorClass ≠ .runtimeCapability :=
  of_decide_eq_true (List.mem_filter.1 he).2

/-- Nothing is taken away where nothing concerns the runtime. -/
theorem apart_eq_self (h : ∀ e ∈ errors, e.errorClass ≠ .runtimeCapability) :
    apartFromRuntime errors = errors :=
  List.filter_eq_self.2 fun e he => decide_eq_true (h e he)

/-- Malformed declarations do not concern the runtime. -/
theorem apart_of_declarationContract (h : ∀ e ∈ errors, e.errorClass = .declarationContract) :
    apartFromRuntime errors = errors :=
  apart_eq_self fun e he heq => absurd ((h e he).symm.trans heq) (by decide)

/-- A check that reports one error does not concern the runtime if the error does not. -/
theorem apart_ite {condition : Prop} [Decidable condition] {e : TypeError}
    (h : e.errorClass ≠ .runtimeCapability) :
    apartFromRuntime (if condition then [e] else []) = if condition then [e] else [] := by
  split
  · exact apart_eq_self fun _ he => List.mem_singleton.1 he ▸ h
  · rfl

@[simp] theorem apart_cycleErrors (params : List TypeParam) :
    apartFromRuntime (cycleErrors params) = cycleErrors params :=
  apart_of_declarationContract fun _ => errorClass_of_mem_cycleErrors

end ApartFromRuntime

/-! ## Clauses and types -/

/-- The marker of a clause concerns the runtime in one error of its own, the last one. -/
theorem TypeParam.apart_clauseErrors (runtime : Bool) (q : TypeParam) :
    apartFromRuntime (q.clauseErrors runtime) = q.clauseErrors true := by
  unfold TypeParam.clauseErrors
  cases q.marker? with
  | none => rfl
  | some marker =>
    obtain ⟨i, span⟩ := marker
    have hlast : TypeError.errorClass ⟨.allowsMarkerNotLast q.name, span⟩ ≠ .runtimeCapability := nofun
    have hclass : TypeError.errorClass ⟨.allowsWithClassConstraint q.name, span⟩ ≠
        .runtimeCapability := nofun
    simp only [apart_append, apart_ite hlast, apart_ite hclass]
    cases runtime <;> rfl

namespace TypeEnv

/-- The same types on a runtime with support. -/
def supported (env : TypeEnv) : TypeEnv := { env with runtime := true }

-- The two proofs are in parentheses so that the equations are used as rewrite rules only: as definitional
-- ones they would also match inside of the instances that decide a condition.

/-- Support does not change which types are stack-only. -/
theorem supported_stackOnly (env : TypeEnv) : env.supported.stackOnly = env.stackOnly := (rfl)

/-- Support does not change which type arguments are admitted. -/
theorem supported_admits (env : TypeEnv) : env.supported.admits = env.admits := (rfl)

/-- A type argument concerns the runtime only where nothing else is wrong with it. -/
theorem supported_argError (env : TypeEnv) (generic owner : String) (param : TypeParam)
    (arg : TypeRef) : env.supported.argError generic owner param arg =
      (env.argError generic owner param arg).filter fun kind =>
        decide (kind.errorClass ≠ .runtimeCapability) := by
  simp only [argError, supported_stackOnly, supported_admits]
  cases env.stackOnly arg <;> cases env.admits owner param <;> cases env.runtime <;> rfl

theorem apart_argErrors (env : TypeEnv) (generic owner : String) (params : List TypeParam)
    (args : List TypeRef) (span : Span) :
    apartFromRuntime (env.argErrors generic owner params args span) =
      env.supported.argErrors generic owner params args span := by
  rw [apartFromRuntime, argErrors, argErrors, List.filter_filterMap]
  refine List.filterMap_congr ?_
  rintro ⟨param, arg⟩ -
  dsimp only
  rw [supported_argError, Option.filter_map]
  rfl

mutual

/-- What is wrong with a type concerns the runtime at its type arguments, at any depth. -/
theorem apart_typeErrors (env : TypeEnv) (span : Span) : (ty : TypeRef) →
    apartFromRuntime (env.typeErrors span ty) = env.supported.typeErrors span ty
  | .void | .primitive _ | .object | .dynamic | .param _ => by simp only [typeErrors, apart_nil]
  | .array elem => by
    have helem : TypeError.errorClass ⟨.arrayOfStackOnlyType elem.display, span⟩ ≠
        .runtimeCapability := nofun
    simp only [typeErrors, apart_append, apart_ite helem, supported_stackOnly,
      apart_typeErrors env span elem]
  | .named name args => by
    have hprogram : env.supported.program = env.program := rfl
    simp only [typeErrors, apart_append, hprogram, apart_allTypeErrors env span args]
    cases env.program.typeDecl? name with
    | none => rfl
    | some decl => simp only [apart_argErrors]

theorem apart_allTypeErrors (env : TypeEnv) (span : Span) : (tys : List TypeRef) →
    apartFromRuntime (env.allTypeErrors span tys) = env.supported.allTypeErrors span tys
  | [] => by simp only [allTypeErrors, apart_nil]
  | ty :: tys => by
    simp only [allTypeErrors, apart_append, apart_typeErrors env span ty,
      apart_allTypeErrors env span tys]

end

/-- Storage does not concern the runtime, types do. -/
theorem apart_fieldErrors (env : TypeEnv) (owner : TypeDecl) (field : FieldDecl) :
    apartFromRuntime (env.fieldErrors owner field) = env.supported.fieldErrors owner field := by
  have hreference : TypeError.errorClass ⟨.refFieldOutsideRefStruct field.name, field.span⟩ ≠
      .runtimeCapability := nofun
  have hstorage : apartFromRuntime (if env.stackOnly field.ty then
      ((storageError owner field).map fun kind => (⟨kind, field.span⟩ : TypeError)).toList else []) =
        if env.stackOnly field.ty then
          ((storageError owner field).map fun kind => ⟨kind, field.span⟩).toList else [] := by
    unfold storageError
    split
    · split
      · rfl
      · split <;> rfl
    · rfl
  simp only [fieldErrors, apart_append, apart_ite hreference, hstorage, supported_stackOnly,
    apart_typeErrors]

end TypeEnv

/-! ## Steps of the pass -/

namespace Declarations

variable {p : Program} {runtime : Bool}

theorem apart_memberClauseErrors (place : Place) (m : Member) :
    apartFromRuntime (memberClauseErrors p runtime place m) = memberClauseErrors p true place m := by
  cases hbase : m.decl.base with
  | some base =>
    have hwith : memberClauseErrors p true place m = memberClauseErrors p runtime place m := by
      simp only [memberClauseErrors, hbase]
    rw [hwith]
    exact apart_of_declarationContract fun _ => errorClass_of_mem_memberClauseErrors hbase
  | none =>
    simp only [memberClauseErrors, hbase]
    split
    · rfl
    · simp only [apart_flatMap, TypeParam.apart_clauseErrors]

theorem apart_signatureErrors (caps : Capabilities) (m : Member) :
    apartFromRuntime (signatureErrors p runtime caps m) = signatureErrors p true caps m := by
  simp only [signatureErrors, apart_append, apart_flatMap, TypeEnv.apart_typeErrors]
  rfl

/-- Nothing of what the parts of a type or of a member disagree on concerns the runtime. -/
theorem apart_memberPartErrors (place : Place) (m : Member) :
    apartFromRuntime (memberPartErrors p place m) = memberPartErrors p place m :=
  apart_of_declarationContract fun _ => errorClass_of_mem_memberPartErrors

theorem apart_typePartErrors (name : String) :
    apartFromRuntime (typePartErrors p name) = typePartErrors p name :=
  apart_of_declarationContract fun _ => errorClass_of_mem_typePartErrors

/-- The state without the errors that concern the runtime. -/
def State.apartFromRuntime (s : State) : State :=
  { s with errors := StackEscape.apartFromRuntime s.errors }

theorem State.report_apart (s : State) (errors : List TypeError) :
    (s.report errors).apartFromRuntime =
      s.apartFromRuntime.report (StackEscape.apartFromRuntime errors) := by
  simp only [State.apartFromRuntime, State.report, apart_append]

/-- No part of entering a type concerns the runtime. -/
theorem enterType_apart (s : State) (t : TypeDecl) :
    enterType p s.apartFromRuntime t = (enterType p s t).apartFromRuntime := by
  have herrors := State.report_apart s (typePartErrors p t.name ++ cycleErrors t.typeParams)
  rw [apart_append, apart_typePartErrors, apart_cycleErrors] at herrors
  simp only [enterType, ← herrors]
  rfl

/-- The clauses that were looked at are the same. -/
theorem checkTypeClause_apart (owner : String) (s : State) (q : TypeParam) :
    checkTypeClause true owner s.apartFromRuntime q =
      (checkTypeClause runtime owner s q).apartFromRuntime := by
  have herrors := State.report_apart s (q.clauseErrors runtime)
  rw [TypeParam.apart_clauseErrors] at herrors
  have hclauses : s.apartFromRuntime.clauses = s.clauses := rfl
  simp only [checkTypeClause, hclauses, ← herrors]
  split <;> rfl

theorem checkMember_apart (s : State) (place : Place) (m : Member) :
    checkMember p true s.apartFromRuntime place m =
      (checkMember p runtime s place m).apartFromRuntime := by
  have hcaps : s.apartFromRuntime.caps = s.caps := rfl
  simp only [checkMember, State.apartFromRuntime, State.report, apart_append,
    apart_memberClauseErrors, apart_cycleErrors, apart_memberPartErrors, apart_signatureErrors]

/-- The fields see the capabilities after the clauses, which are the same. -/
theorem checkFields_apart (s : State) (t : TypeDecl) :
    checkFields p true s.apartFromRuntime t = (checkFields p runtime s t).apartFromRuntime := by
  have hclauses : t.typeParams.foldl (checkTypeClause true t.name) s.apartFromRuntime =
      (t.typeParams.foldl (checkTypeClause runtime t.name) s).apartFromRuntime :=
    List.foldl_hom _ (checkTypeClause_apart t.name)
  simp only [checkFields, hclauses, State.report_apart, apart_flatMap, TypeEnv.apart_fieldErrors]
  rfl

/-- The step of a part is the same but for the errors that concern the runtime. -/
theorem checkPart_apart (s : State) (i : Nat) (t : TypeDecl) :
    checkPart p true s.apartFromRuntime i t = (checkPart p runtime s i t).apartFromRuntime := by
  rw [checkPart_eq, checkPart_eq, checkFields_apart]
  exact List.foldl_hom State.apartFromRuntime fun u x => checkMember_apart u (i, x.2) ⟨t, x.1⟩

end Declarations

/-! ## The whole pass -/

namespace Program

open Declarations

/-- The pass on a runtime with support ends as on any runtime, errors that concern the runtime apart. -/
theorem checkDeclarations_eq_apart (p : Program) (runtime : Bool) (caps : Capabilities) :
    p.checkDeclarations true caps = ((p.checkDeclarations runtime caps).1,
      apartFromRuntime (p.checkDeclarations runtime caps).2) := by
  have hentered (s : State) : (firstParts [] p.types).foldl (enterType p) s.apartFromRuntime =
      ((firstParts [] p.types).foldl (enterType p) s).apartFromRuntime :=
    List.foldl_hom State.apartFromRuntime enterType_apart
  have hparts (s : State) :
      p.types.zipIdx.foldl (fun s x => checkPart p true s x.2 x.1) s.apartFromRuntime =
        (p.types.zipIdx.foldl (fun s x => checkPart p runtime s x.2 x.1) s).apartFromRuntime :=
    List.foldl_hom State.apartFromRuntime fun u x => checkPart_apart u x.2 x.1
  have hfinal := hparts ((firstParts [] p.types).foldl (enterType p) ⟨caps, [], []⟩)
  -- Nothing is reported at the start, so nothing is taken away there.
  rw [← hentered] at hfinal
  exact congrArg (fun s : State => (s.caps, s.errors)) hfinal

/-- **Runtime support.** On a runtime that lacks support the same capabilities are filed as on one with
support, and the same errors are reported in the same order but for those that concern the runtime. On one
with support no error does. -/
theorem checkDeclarations_apart (p : Program) (caps : Capabilities) :
    (p.checkDeclarations false caps).1 = (p.checkDeclarations true caps).1 ∧
    (p.checkDeclarations false caps).2.filter (fun e => decide (e.errorClass ≠ .runtimeCapability)) =
      (p.checkDeclarations true caps).2 ∧
    ∀ e ∈ (p.checkDeclarations true caps).2, e.errorClass ≠ .runtimeCapability := by
  have hwithout := p.checkDeclarations_eq_apart false caps
  have hwith := congrArg Prod.snd (p.checkDeclarations_eq_apart true caps)
  refine ⟨(congrArg Prod.fst hwithout).symm, (congrArg Prod.snd hwithout).symm, fun e he => ?_⟩
  rw [hwith] at he
  exact errorClass_of_mem_apart he

end Program

end StackEscape
