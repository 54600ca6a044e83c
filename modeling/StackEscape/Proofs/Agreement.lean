import StackEscape.Body.Call
import StackEscape.Body.Restriction
import StackEscape.Declarations.Pass

/-!
# Agreeing capabilities

Two tables of capabilities that agree on the type parameters of some declarations give the same
answer to every question about types that stand in the scope of those declarations. So what the
table has to say about other declarations never matters.

## Main definitions

* `StackEscape.Capabilities.Agree` — two tables say the same of the type parameters of some owners.
* `StackEscape.GenericScope.OwnedBy` — every type parameter in scope belongs to one of some owners.

## Main results

* `StackEscape.Capabilities.Agree.of_eq` — types have the same capabilities.
* `StackEscape.Capabilities.Agree.typeErrors_eq` — types are well formed for both or for neither.
* `StackEscape.Capabilities.Agree.build_eq`, `ofMember_eq` — contracts are the same.
* `StackEscape.Capabilities.Agree.fillOwn` — filing the same clauses keeps the agreement.
-/

set_option autoImplicit false

namespace StackEscape

/-- Every type parameter in scope is declared by one of the owners. -/
def GenericScope.OwnedBy (own : String → Prop) (scope : GenericScope) : Prop :=
  ∀ frame ∈ scope, own frame.owner

/-- A type parameter that a name means belongs to an owner of the scope. -/
theorem GenericScope.OwnedBy.resolve {own : String → Prop} {scope : GenericScope}
    (h : scope.OwnedBy own) {name : String} {k : TypeParamKey} (hk : scope.resolve name = some k) :
    own k.owner := by
  simp only [GenericScope.resolve, Option.map_eq_some_iff] at hk
  obtain ⟨frame, hf, rfl⟩ := hk
  exact h frame (List.mem_of_find?_eq_some hf)

/-- A scope with one more declaration is owned if that declaration is an owner. -/
theorem GenericScope.OwnedBy.push {own : String → Prop} {scope : GenericScope}
    (h : scope.OwnedBy own) {owner : String} (ho : own owner) (params : List TypeParam) :
    (scope.push owner params).OwnedBy own := by
  intro frame hf
  rcases List.mem_cons.1 hf with rfl | hf
  · exact ho
  · exact h frame hf

/-- The scope of a member is owned if the member and its type are. -/
theorem Member.ownedBy_innerScope {own : String → Prop} {m : Member} (hm : own m.key)
    (ht : own m.owner.name) : m.innerScope.OwnedBy own :=
  GenericScope.OwnedBy.push (GenericScope.OwnedBy.push (by simp [GenericScope.OwnedBy]) ht _) hm _

namespace Capabilities

/-- The tables say the same of every type parameter that one of the owners declares. -/
def Agree (own : String → Prop) (c d : Capabilities) : Prop :=
  ∀ k : TypeParamKey, own k.owner → c.get? k = d.get? k

namespace Agree

variable {own : String → Prop} {c d : Capabilities} {p : Program} {scope : GenericScope}

theorem refl (own : String → Prop) (c : Capabilities) : Agree own c c := fun _ _ => rfl

theorem ofParam_eq (h : Agree own c d) (hs : scope.OwnedBy own) :
    c.ofParam scope = d.ofParam scope := by
  funext name
  unfold Capabilities.ofParam
  cases hk : scope.resolve name with
  | none => rfl
  | some k => simp only [Option.bind_some, h k (hs.resolve hk)]

/-- Types have the same capabilities. -/
theorem of_eq (h : Agree own c d) (hs : scope.OwnedBy own) : c.of p scope = d.of p scope := by
  funext ty
  cases ty <;> simp only [Capabilities.of, h.ofParam_eq hs]

/-- The same types are stack-only. -/
theorem stackOnly_eq (h : Agree own c d) (hs : scope.OwnedBy own) :
    c.stackOnly p scope = d.stackOnly p scope := by
  funext ty
  simp only [Capabilities.stackOnly, h.of_eq hs]

/-- Declarations have the same contracts. -/
theorem build_eq (h : Agree own c d) (hs : scope.OwnedBy own) (owner : TypeDecl) (decl : FnDecl)
    (key : String) (isLocal : Bool) :
    Contract.build c p owner decl key scope isLocal =
      Contract.build d p owner decl key scope isLocal := by
  simp only [Contract.build, h.stackOnly_eq hs]

/-- Members have the same contracts. -/
theorem ofMember_eq (h : Agree own c d) {m : Member} (hm : own m.key) (ht : own m.owner.name) :
    Contract.ofMember c p m = Contract.ofMember d p m :=
  h.build_eq (Member.ownedBy_innerScope hm ht) ..

/-- A clause gives its parameter the same capability. -/
theorem capability_eq (h : Agree own c d) (hs : scope.OwnedBy own) (siblings : List TypeParam)
    (q : TypeParam) :
    Clause.capability ⟨p, c, siblings, scope⟩ q = Clause.capability ⟨p, d, siblings, scope⟩ q := by
  have hb : Clause.outerBounds ⟨p, c, siblings, scope⟩ =
      Clause.outerBounds ⟨p, d, siblings, scope⟩ := by
    funext r
    simp only [Clause.outerBounds, Clause.sibling?, h.ofParam_eq hs]
  have hv : Clause.saysValue ⟨p, c, siblings, scope⟩ =
      Clause.saysValue ⟨p, d, siblings, scope⟩ := by
    funext r; simp only [Clause.saysValue, hb]
  have hr : Clause.saysReference ⟨p, c, siblings, scope⟩ =
      Clause.saysReference ⟨p, d, siblings, scope⟩ := by
    funext r; simp only [Clause.saysReference, hb]
  have hreach : Clause.reached ⟨p, c, siblings, scope⟩ q =
      Clause.reached ⟨p, d, siblings, scope⟩ q := rfl
  simp only [Clause.capability, hv, hr, hreach]

/-- Filing one clause keeps the agreement. -/
theorem fillOne (h : Agree own c d) (hs : scope.OwnedBy own) (owner : String)
    (siblings : List TypeParam) (q : TypeParam) :
    Agree own (c.fillOne p owner siblings scope q) (d.fillOne p owner siblings scope q) := by
  intro k hk
  simp only [Capabilities.fillOne, Table.get?_keep, h.capability_eq hs]
  by_cases hkq : k = ⟨owner, q.name⟩
  · subst hkq; simp only [if_true, h _ hk]
  · simp only [hkq, if_false, h _ hk]

/-- Filing the same clauses keeps the agreement. -/
theorem fillOwn (h : Agree own c d) (hs : scope.OwnedBy own) (owner : String)
    (params : List TypeParam) :
    Agree own (c.fillOwn p owner params scope) (d.fillOwn p owner params scope) := by
  -- The parameters still to be filed get fewer, their siblings stay the same.
  have main (qs : List TypeParam) : ∀ {c d : Capabilities}, Agree own c d →
      Agree own (qs.foldl (fun caps q => caps.fillOne p owner params scope q) c)
        (qs.foldl (fun caps q => caps.fillOne p owner params scope q) d) := by
    induction qs with
    | nil => exact fun h => h
    | cons q rest ih => exact fun h => ih (h.fillOne hs owner params q)
  exact main params h

end Agree

/-- Filing clauses of one declaration leaves the type parameters of all others alone. -/
theorem get?_fillOwn_of_ne {p : Program} {owner : String} {scope : GenericScope}
    {k : TypeParamKey} (hk : k.owner ≠ owner) (c : Capabilities) (params : List TypeParam) :
    (c.fillOwn p owner params scope).get? k = c.get? k := by
  have main (qs : List TypeParam) : ∀ c : Capabilities,
      (qs.foldl (fun caps q => caps.fillOne p owner params scope q) c).get? k = c.get? k := by
    induction qs with
    | nil => exact fun _ => rfl
    | cons q rest ih =>
      intro c
      have hne : k ≠ ⟨owner, q.name⟩ := fun h => hk (by rw [h])
      rw [List.foldl_cons, ih, Capabilities.fillOne, Table.get?_keep, if_neg hne]
  exact main params c

end Capabilities

/-! ## Questions about types -/

namespace TypeEnv

variable {e f : TypeEnv}

/-- Equal capabilities make the same types stack-only. -/
theorem stackOnly_congr (h : e.capability = f.capability) : e.stackOnly = f.stackOnly := by
  funext ty; simp only [stackOnly, h]

theorem isHeapType_congr (h : e.capability = f.capability) : e.isHeapType = f.isHeapType := by
  funext ty; simp only [isHeapType, h]

theorem fieldPair_congr (hp : e.program = f.program) (h : e.capability = f.capability) :
    e.fieldPair = f.fieldPair := by
  funext receiver owner name ty
  simp only [fieldPair, isHeapType_congr h, stackOnly_congr h, hp]

theorem conversionError_congr (h : e.capability = f.capability) :
    e.conversionError = f.conversionError := by
  funext source target; simp only [conversionError, stackOnly_congr h, h]

theorem nullTestVerdict_congr (h : e.capability = f.capability) :
    e.nullTestVerdict = f.nullTestVerdict := by
  funext op subject; simp only [nullTestVerdict, h]

theorem comparisonError_congr (h : e.capability = f.capability) :
    e.comparisonError = f.comparisonError := by
  funext subject other
  simp only [comparisonError, stackOnly_congr h, isHeapType_congr h]

theorem binaryVerdict_congr (h : e.capability = f.capability) :
    e.binaryVerdict = f.binaryVerdict := by
  funext op left right
  simp only [binaryVerdict, equalityVerdict, nullTestVerdict_congr h, comparisonError_congr h]

theorem testVerdict_congr (h : e.capability = f.capability) : e.testVerdict = f.testVerdict := by
  funext subject pattern; simp only [testVerdict, nullTestVerdict_congr h]

theorem dynamicErrors_congr (h : e.capability = f.capability) :
    e.dynamicErrors = f.dynamicErrors := by
  funext operands; simp only [dynamicErrors, stackOnly_congr h]

end TypeEnv

namespace Capabilities.Agree

variable {own : String → Prop} {c d : Capabilities} {p : Program} {scope : GenericScope}
  {runtime : Bool}

/-- Type arguments of an owner's declaration are admitted by both tables or by neither. -/
theorem argErrors_eq (h : Agree own c d) (hs : scope.OwnedBy own) {owner : String}
    (ho : own owner) (generic : String) (params : List TypeParam) (args : List TypeRef)
    (span : Span) :
    TypeEnv.argErrors ⟨p, c, scope, runtime⟩ generic owner params args span =
      TypeEnv.argErrors ⟨p, d, scope, runtime⟩ generic owner params args span := by
  have hadmits : TypeEnv.admits ⟨p, c, scope, runtime⟩ owner =
      TypeEnv.admits ⟨p, d, scope, runtime⟩ owner := by
    funext q; simp only [TypeEnv.admits, h ⟨owner, q.name⟩ ho]
  have hcap : TypeEnv.stackOnly ⟨p, c, scope, runtime⟩ =
      TypeEnv.stackOnly ⟨p, d, scope, runtime⟩ :=
    TypeEnv.stackOnly_congr (h.of_eq hs)
  simp only [TypeEnv.argErrors, TypeEnv.argError, hadmits, hcap]

mutual

/-- A type is well formed for both tables or for neither. -/
theorem typeErrors_eq (h : Agree own c d) (hs : scope.OwnedBy own)
    (hp : ∀ name ∈ p.typeNames, own name) (span : Span) : (ty : TypeRef) →
    TypeEnv.typeErrors ⟨p, c, scope, runtime⟩ span ty =
      TypeEnv.typeErrors ⟨p, d, scope, runtime⟩ span ty
  | .void | .primitive _ | .object | .dynamic | .param _ => by simp only [TypeEnv.typeErrors]
  | .array elem => by
    have hcap : TypeEnv.stackOnly ⟨p, c, scope, runtime⟩ =
        TypeEnv.stackOnly ⟨p, d, scope, runtime⟩ := TypeEnv.stackOnly_congr (h.of_eq hs)
    simp only [TypeEnv.typeErrors, hcap, typeErrors_eq h hs hp span elem]
  | .named name args => by
    simp only [TypeEnv.typeErrors, allTypeErrors_eq h hs hp span args]
    cases ht : p.typeDecl? name with
    | none => rfl
    | some t =>
      have hn : own name := by
        unfold Program.typeDecl? at ht
        have hname : t.name = name := by simpa using List.find?_some ht
        exact hname ▸ hp _ (List.mem_map_of_mem (List.mem_of_find?_eq_some ht))
      simp only [h.argErrors_eq hs hn]

theorem allTypeErrors_eq (h : Agree own c d) (hs : scope.OwnedBy own)
    (hp : ∀ name ∈ p.typeNames, own name) (span : Span) : (tys : List TypeRef) →
    TypeEnv.allTypeErrors ⟨p, c, scope, runtime⟩ span tys =
      TypeEnv.allTypeErrors ⟨p, d, scope, runtime⟩ span tys
  | [] => by simp only [TypeEnv.allTypeErrors]
  | ty :: tys => by
    simp only [TypeEnv.allTypeErrors, typeErrors_eq h hs hp span ty,
      allTypeErrors_eq h hs hp span tys]

end

end Capabilities.Agree

end StackEscape
