import StackEscape.Analysis
import StackEscape.Proofs.Agreement

/-!
# Outlines of programs

What of a program can be seen from outside of its bodies. The check of declarations, the rules on
contracts and the meaning of names depend on nothing else.

## Main definitions

* `StackEscape.Program.outline` — a program without its bodies; on demand also without the `scoped`
  modifiers of parameters.

## Main results

* `StackEscape.Program.member?_outline` — members are found by outlines.
* `StackEscape.Program.checkDeclarations_outline`, `contractErrors_outline` — errors outside of bodies
  depend on outlines.

## Implementation notes

Whatever finds a declaration in an outline finds the outline of what is found in the program, so that
programs with the same outline can be compared by rewriting with both sides' lemmas.
-/

set_option autoImplicit false

namespace StackEscape

/-! ## Outlines -/

/-- A parameter; unless modifiers are kept it counts as not `scoped`. Where `UnscopedRef` stands, the
modifier decides whether that is an error, so there it is kept in any case. -/
def Param.outline (keep : Bool) (q : Param) : Param :=
  if keep || q.isUnscoped then q else { q with isScoped := false }

/-- A member without its body. -/
def FnDecl.outline (keep : Bool) (f : FnDecl) : FnDecl :=
  { f with params := f.params.map (Param.outline keep), body := none }

/-- A type part without the bodies of its members. -/
def TypeDecl.outline (keep : Bool) (t : TypeDecl) : TypeDecl :=
  { t with
    primaryParams := t.primaryParams.map (Param.outline keep)
    members := t.members.map (FnDecl.outline keep) }

/-- A member and its type part without bodies. -/
def Member.outline (keep : Bool) (m : Member) : Member :=
  ⟨m.owner.outline keep, m.decl.outline keep⟩

/-- A program without bodies. -/
def Program.outline (keep : Bool) (p : Program) : Program :=
  ⟨p.types.map (TypeDecl.outline keep)⟩

namespace Param

variable (keep : Bool) (q : Param)

@[simp] theorem outline_name : (q.outline keep).name = q.name := by unfold outline; split <;> rfl

@[simp] theorem outline_ty : (q.outline keep).ty = q.ty := by unfold outline; split <;> rfl

@[simp] theorem outline_refKind : (q.outline keep).refKind = q.refKind := by
  unfold outline; split <;> rfl

@[simp] theorem outline_attrs : (q.outline keep).attrs = q.attrs := by
  unfold outline; split <;> rfl

@[simp] theorem outline_span : (q.outline keep).span = q.span := by unfold outline; split <;> rfl

@[simp] theorem outline_isUnscoped : (q.outline keep).isUnscoped = q.isUnscoped := by
  rw [isUnscoped, outline_attrs, isUnscoped]

@[simp] theorem outline_true : q.outline true = q := by simp [outline]

/-- A parameter with `UnscopedRef` keeps its modifier. -/
theorem outline_of_isUnscoped {q : Param} (h : q.isUnscoped = true) : q.outline keep = q := by
  simp [outline, h]

end Param

namespace FnDecl

variable (keep : Bool) (f : FnDecl)

@[simp] theorem outline_name : (f.outline keep).name = f.name := rfl

@[simp] theorem outline_kind : (f.outline keep).kind = f.kind := rfl

@[simp] theorem outline_modifiers : (f.outline keep).modifiers = f.modifiers := rfl

@[simp] theorem outline_typeParams : (f.outline keep).typeParams = f.typeParams := rfl

@[simp] theorem outline_params :
    (f.outline keep).params = f.params.map (Param.outline keep) := rfl

@[simp] theorem outline_ret : (f.outline keep).ret = f.ret := rfl

@[simp] theorem outline_explicitImpl : (f.outline keep).explicitImpl = f.explicitImpl := rfl

@[simp] theorem outline_base : (f.outline keep).base = f.base := rfl

@[simp] theorem outline_span : (f.outline keep).span = f.span := rfl

@[simp] theorem outline_unscopedSpan : (f.outline keep).unscopedSpan = f.unscopedSpan := rfl

@[simp] theorem outline_isUnscoped : (f.outline keep).isUnscoped = f.isUnscoped := rfl

end FnDecl

namespace TypeDecl

variable (keep : Bool) (t : TypeDecl)

@[simp] theorem outline_name : (t.outline keep).name = t.name := rfl

@[simp] theorem outline_kind : (t.outline keep).kind = t.kind := rfl

@[simp] theorem outline_isReadonly : (t.outline keep).isReadonly = t.isReadonly := rfl

@[simp] theorem outline_typeParams : (t.outline keep).typeParams = t.typeParams := rfl

@[simp] theorem outline_interfaces : (t.outline keep).interfaces = t.interfaces := rfl

@[simp] theorem outline_primaryParams :
    (t.outline keep).primaryParams = t.primaryParams.map (Param.outline keep) := rfl

@[simp] theorem outline_fields : (t.outline keep).fields = t.fields := rfl

@[simp] theorem outline_members :
    (t.outline keep).members = t.members.map (FnDecl.outline keep) := rfl

@[simp] theorem outline_baseNames : (t.outline keep).baseNames = t.baseNames := rfl

end TypeDecl

namespace Member

variable (keep : Bool) (m : Member)

@[simp] theorem outline_owner : (m.outline keep).owner = m.owner.outline keep := rfl

@[simp] theorem outline_decl : (m.outline keep).decl = m.decl.outline keep := rfl

@[simp] theorem outline_key : (m.outline keep).key = m.key := rfl

@[simp] theorem outline_outerScope : (m.outline keep).outerScope = m.outerScope := rfl

@[simp] theorem outline_innerScope : (m.outline keep).innerScope = m.innerScope := rfl

end Member

/-! ## Names -/

namespace Program

variable (keep : Bool) (p : Program)

@[simp] theorem outline_types :
    (p.outline keep).types = p.types.map (TypeDecl.outline keep) := rfl

@[simp] theorem parts_outline (name : String) :
    (p.outline keep).parts name = (p.parts name).map (TypeDecl.outline keep) := by
  simp only [parts, outline_types, List.filter_map]
  rfl

@[simp] theorem typeDecl?_outline (name : String) :
    (p.outline keep).typeDecl? name = (p.typeDecl? name).map (TypeDecl.outline keep) := by
  simp only [typeDecl?, outline_types, List.find?_map]
  rfl

@[simp] theorem typeNames_outline : (p.outline keep).typeNames = p.typeNames := by
  simp [typeNames, Function.comp_def]

@[simp] theorem members_outline :
    (p.outline keep).members = p.members.map (Member.outline keep) := by
  simp [members, List.flatMap_map, List.map_flatMap, Function.comp_def, Member.outline]

@[simp] theorem memberKeys_outline : (p.outline keep).memberKeys = p.memberKeys := by
  simp [memberKeys, Function.comp_def]

@[simp] theorem declared?_outline (owner name : String) :
    (p.outline keep).declared? owner name =
      (p.declared? owner name).map (Member.outline keep) := by
  simp only [declared?, parts_outline, List.findSome?_map, List.map_findSome?]
  congr 1
  funext part
  simp only [Function.comp_def, TypeDecl.outline_members, List.find?_map, Option.map_map]
  rfl

@[simp] theorem searchOrder_outline (owner : String) :
    (p.outline keep).searchOrder owner = p.searchOrder owner := by
  have hbases : (p.outline keep).searchedBases = p.searchedBases := by
    funext owner
    simp only [searchedBases, typeDecl?_outline]
    cases p.typeDecl? owner <;> rfl
  simp only [searchOrder, hbases, typeNames_outline]

@[simp] theorem findMember_outline (owner name : String) :
    (p.outline keep).findMember owner name =
      (p.findMember owner name).map (Member.outline keep) := by
  simp [findMember, List.map_findSome?, Function.comp_def]

/-- Members are found by outlines. -/
@[simp] theorem member?_outline (r : MemberRef) :
    (p.outline keep).member? r = (p.member? r).map (Member.outline keep) := by
  simp only [member?, findMember_outline]
  cases r.owner.declName <;> rfl

/-- Base members are found by outlines. -/
@[simp] theorem bind_member?_outline (base : Option MemberRef) :
    base.bind (p.outline keep).member? = (base.bind p.member?).map (Member.outline keep) := by
  cases base <;> simp

/-- The fields of a type are part of its outline. -/
theorem field?_outline (owner : TypeRef) (name : String) :
    ((p.outline keep).field? owner name).map Field.decl = (p.field? owner name).map Field.decl := by
  simp only [field?, parts_outline]
  cases owner.declName with
  | none => rfl
  | some owner => simp [List.findSome?_map, List.map_findSome?, Function.comp_def]

end Program

/-! ## Capabilities -/

section Capabilities

variable (keep : Bool) (p : Program) (caps : Capabilities)

@[simp] theorem Capabilities.of_outline : caps.of (p.outline keep) = caps.of p := by
  funext scope ty
  have hnamed (name : String) : ofNamed (p.outline keep) name = ofNamed p name := by
    simp [ofNamed, Function.comp_def]
  cases ty <;> simp only [of, hnamed]

@[simp] theorem Capabilities.stackOnly_outline :
    caps.stackOnly (p.outline keep) = caps.stackOnly p := by
  funext scope ty
  simp only [stackOnly, of_outline]

@[simp] theorem Clause.capability_outline (siblings : List TypeParam) (outer : GenericScope)
    (q : TypeParam) : Clause.capability ⟨p.outline keep, caps, siblings, outer⟩ q =
      Clause.capability ⟨p, caps, siblings, outer⟩ q := by
  have hreference : saysReference ⟨p.outline keep, caps, siblings, outer⟩ =
      saysReference ⟨p, caps, siblings, outer⟩ := by
    funext q
    simp [saysReference, outerBounds, sibling?, Function.comp_def]
  simp only [capability, hreference]
  rfl

@[simp] theorem Capabilities.fillOwn_outline (owner : String) (siblings : List TypeParam)
    (outer : GenericScope) :
    caps.fillOwn (p.outline keep) owner siblings outer = caps.fillOwn p owner siblings outer := by
  simp [fillOwn, fillOne]

/-- What a type parameter takes over depends on outlines. -/
theorem Program.inherited_outline (index : Nat) (pending : List String) (m : Member) :
    (p.outline keep).inherited caps index pending (m.outline keep) =
      p.inherited caps index pending m := by
  fun_induction Program.inherited p caps index pending m with
  | case1 pending m hq => rw [inherited]; simp [hq]
  | case2 pending m q hq c hc => rw [inherited]; simp [hq, hc]
  | case3 pending m q hq hc hpending base hbase c keys heq ih =>
    rw [inherited]
    simp [hq, hc, hpending, hbase, ih, heq]
  | case4 pending m q hq hc hpending hbase =>
    rw [inherited]
    simp [hq, hc, hpending, hbase]
  | case5 pending m q hq hc hpending => rw [inherited]; simp [hq, hc, hpending]

@[simp] theorem Capabilities.fillInherited_outline (m : Member) (index : Nat) :
    caps.fillInherited (p.outline keep) (m.outline keep) index = caps.fillInherited p m index := by
  simp only [fillInherited, Program.inherited_outline, Program.memberKeys_outline]

end Capabilities

/-! ## Types -/

/-- What types mean at a point, by the outline of the program. -/
def TypeEnv.outline (keep : Bool) (env : TypeEnv) : TypeEnv :=
  { env with program := env.program.outline keep }

namespace TypeEnv

variable (keep : Bool) (env : TypeEnv)

@[simp] theorem capability_outline : (env.outline keep).capability = env.capability := by
  funext ty
  simp [capability, outline]

@[simp] theorem stackOnly_outline : (env.outline keep).stackOnly = env.stackOnly :=
  stackOnly_congr (capability_outline keep env)

@[simp] theorem argErrors_outline : (env.outline keep).argErrors = env.argErrors := by
  funext generic owner params args span
  simp only [argErrors, argError, stackOnly_outline]
  rfl

mutual

@[simp] theorem typeErrors_outline (span : Span) :
    (ty : TypeRef) → (env.outline keep).typeErrors span ty = env.typeErrors span ty
  | .void | .primitive _ | .object | .dynamic | .param _ => by simp [typeErrors]
  | .array elem => by
    rw [typeErrors, typeErrors, stackOnly_outline, typeErrors_outline span elem]
  | .named name args => by
    rw [typeErrors, typeErrors, allTypeErrors_outline span args]
    simp only [outline, Program.typeDecl?_outline]
    cases env.program.typeDecl? name with
    | none => rfl
    | some decl =>
      change (env.outline keep).argErrors name name decl.typeParams args span ++ _ = _
      rw [argErrors_outline]

@[simp] theorem allTypeErrors_outline (span : Span) :
    (tys : List TypeRef) → (env.outline keep).allTypeErrors span tys = env.allTypeErrors span tys
  | [] => by simp [allTypeErrors]
  | ty :: tys => by
    rw [allTypeErrors, allTypeErrors, typeErrors_outline span ty, allTypeErrors_outline span tys]

end

@[simp] theorem fieldErrors_outline (owner : TypeDecl) (field : FieldDecl) :
    (env.outline keep).fieldErrors (owner.outline keep) field = env.fieldErrors owner field := by
  simp only [fieldErrors, stackOnly_outline, typeErrors_outline]
  rfl

@[simp] theorem fieldPair_outline : (env.outline keep).fieldPair = env.fieldPair := by
  funext receiver owner name ty
  have hheap : (env.outline keep).isHeapType = env.isHeapType :=
    isHeapType_congr (capability_outline keep env)
  have hfield := env.program.field?_outline keep owner name
  rcases receiver with _ | ⟨pair, receiverTy⟩
  · rfl
  · simp only [fieldPair, stackOnly_outline, hheap]
    change ((env.outline keep).program.field? owner name).map Field.decl = _ at hfield
    cases hf : (env.outline keep).program.field? owner name <;>
      cases hg : env.program.field? owner name <;> simp_all

end TypeEnv

/-! ## The check of declarations -/

namespace Declarations

variable (keep : Bool) (p : Program) (runtime : Bool)

@[simp] theorem typePartErrors_outline (name : String) :
    typePartErrors (p.outline keep) name = typePartErrors p name := by
  simp only [typePartErrors, Program.parts_outline]
  cases p.parts name with
  | nil => rfl
  | cons first rest => simp [List.flatMap_map]

@[simp] theorem enterType_outline (s : State) (t : TypeDecl) :
    enterType (p.outline keep) s (t.outline keep) = enterType p s t := by
  simp [enterType]

theorem firstParts_outline (seen : List String) (ts : List TypeDecl) :
    firstParts seen (ts.map (TypeDecl.outline keep)) =
      (firstParts seen ts).map (TypeDecl.outline keep) := by
  induction ts generalizing seen with
  | nil => rfl
  | cons t ts ih =>
    simp only [List.map_cons, firstParts, TypeDecl.outline_name, ih]
    split <;> rfl

@[simp] theorem membersOf_outline (name : String) :
    (p.outline keep).membersOf name =
      (p.membersOf name).map fun e => (e.1, e.2.outline keep) := by
  simp only [Program.membersOf, Program.outline_types, List.zipIdx_map, List.filter_map,
    List.flatMap_map, List.map_flatMap]
  congr 1
  funext e
  simp [List.zipIdx_map]

@[simp] theorem earlierPart?_outline (place : Place) (m : Member) :
    (p.outline keep).earlierPart? place (m.outline keep) =
      (p.earlierPart? place m).map (FnDecl.outline keep) := by
  have hfirst (owner name : String) : (p.outline keep).firstPartial? owner name =
      (p.firstPartial? owner name).map fun e => (e.1, e.2.outline keep) := by
    simp only [Program.firstPartial?, membersOf_outline, List.find?_map]
    rfl
  simp only [Program.earlierPart?, hfirst, Member.outline_decl, Member.outline_owner,
    FnDecl.outline_modifiers, FnDecl.outline_name, TypeDecl.outline_name]
  split
  · cases p.firstPartial? m.owner.name m.decl.name with
    | none => rfl
    | some e =>
      simp only [Option.map_some]
      split <;> rfl
  · rfl

@[simp] theorem memberClauseErrors_outline (place : Place) (m : Member) :
    memberClauseErrors (p.outline keep) runtime place (m.outline keep) =
      memberClauseErrors p runtime place m := by
  simp [memberClauseErrors]

@[simp] theorem fillMember_outline (caps : Capabilities) (m : Member) :
    fillMember (p.outline keep) caps (m.outline keep) = fillMember p caps m := by
  simp only [fillMember, Member.outline_decl, FnDecl.outline_base, FnDecl.outline_typeParams,
    Program.bind_member?_outline, Option.isSome_map, Capabilities.fillInherited_outline,
    Capabilities.fillOwn_outline, Member.outline_key, Member.outline_outerScope]

@[simp] theorem memberPartErrors_outline (place : Place) (m : Member) :
    memberPartErrors (p.outline keep) place (m.outline keep) = memberPartErrors p place m := by
  simp only [memberPartErrors, earlierPart?_outline]
  cases p.earlierPart? place m <;> rfl

@[simp] theorem signatureErrors_outline (caps : Capabilities) (m : Member) :
    signatureErrors (p.outline keep) runtime caps (m.outline keep) =
      signatureErrors p runtime caps m := by
  have htypes (span : Span) (ty : TypeRef) :
      TypeEnv.typeErrors ⟨p.outline keep, caps, m.innerScope, runtime⟩ span ty =
        TypeEnv.typeErrors ⟨p, caps, m.innerScope, runtime⟩ span ty :=
    TypeEnv.typeErrors_outline keep ⟨p, caps, m.innerScope, runtime⟩ span ty
  simp [signatureErrors, htypes, List.flatMap_map]

@[simp] theorem checkMember_outline (s : State) (place : Place) (m : Member) :
    checkMember (p.outline keep) runtime s place (m.outline keep) =
      checkMember p runtime s place m := by
  simp [checkMember]

@[simp] theorem checkPart_outline (s : State) (i : Nat) (t : TypeDecl) :
    checkPart (p.outline keep) runtime s i (t.outline keep) = checkPart p runtime s i t := by
  have hfields (caps : Capabilities) (scope : GenericScope) :
      TypeEnv.fieldErrors ⟨p.outline keep, caps, scope, runtime⟩ (t.outline keep) =
        TypeEnv.fieldErrors ⟨p, caps, scope, runtime⟩ t :=
    funext (TypeEnv.fieldErrors_outline keep ⟨p, caps, scope, runtime⟩ t)
  have hmember (s : State) (place : Place) (d : FnDecl) :
      checkMember (p.outline keep) runtime s place ⟨t.outline keep, d.outline keep⟩ =
        checkMember p runtime s place ⟨t, d⟩ := checkMember_outline keep p runtime s place ⟨t, d⟩
  simp [checkPart, hfields, hmember, List.zipIdx_map, List.foldl_map]

end Declarations

/-- The check of declarations depends on outlines. -/
@[simp] theorem Program.checkDeclarations_outline (keep : Bool) (p : Program) (runtime : Bool)
    (caps : Capabilities) :
    (p.outline keep).checkDeclarations runtime caps = p.checkDeclarations runtime caps := by
  simp [checkDeclarations, Declarations.firstParts_outline, List.zipIdx_map, List.foldl_map]

/-! ## Rules on contracts -/

/-- Where annotations may stand depends on outlines. -/
@[simp] theorem placementErrors_outline (keep : Bool) (owner : TypeDecl) (decl : FnDecl)
    (key : String) (isLocal : Bool) :
    placementErrors (owner.outline keep) (decl.outline keep) key isLocal =
      placementErrors owner decl key isLocal := by
  have hparam : paramPlacementError ∘ Param.outline keep = paramPlacementError := by
    funext q
    cases h : q.isUnscoped with
    | true => rw [Function.comp_apply, Param.outline_of_isUnscoped keep h]
    | false =>
      rw [Param.isUnscoped, Option.isSome_eq_false_iff, Option.isNone_iff_eq_none] at h
      simp [paramPlacementError, h]
  have hmember : memberPlacementError (owner.outline keep) (decl.outline keep) key isLocal =
      memberPlacementError owner decl key isLocal := by
    simp [memberPlacementError, mayBeUnscoped]
  rw [placementErrors, placementErrors, hmember, FnDecl.outline_params, List.filterMap_map, hparam]

namespace Program

variable (keep : Bool) (p : Program)

@[simp] theorem interfaceMembers_outline (ty : TypeRef) :
    (p.outline keep).interfaceMembers ty =
      (p.interfaceMembers ty).map (Member.outline keep) := by
  have hsucc : (p.outline keep).interfaceSucc = p.interfaceSucc := by
    funext node
    cases node with
    | named name =>
      simp only [interfaceSucc, outline_types, List.zipIdx_map, List.filter_map, List.map_map]
      rfl
    | part i => simp [interfaceSucc, Function.comp_def]
  have hnodes : (p.outline keep).interfaceNodes = p.interfaceNodes := by
    simp [interfaceNodes]
  have hat : (p.outline keep).membersAt = fun node =>
      (p.membersAt node).map (Member.outline keep) := by
    funext node
    cases node with
    | named name => rfl
    | part i =>
      simp only [membersAt, outline_types, List.getElem?_map]
      cases p.types[i]? with
      | none => rfl
      | some t => simp [Function.comp_def, Member.outline]
  simp only [interfaceMembers, hsucc, hnodes]
  cases ty.declName with
  | none => rfl
  | some name => simp [hat, List.map_flatMap]

@[simp] theorem implementing?_outline (ty : String) (required : Member) :
    (p.outline keep).implementing? ty (required.outline keep) =
      (p.implementing? ty required).map (Member.outline keep) := by
  have hfirst (test test' : FnDecl → Bool) (h : ∀ d, test' (d.outline keep) = test d) :
      ((p.outline keep).parts ty).findSome? (fun part =>
        (part.members.find? test').map fun m => (⟨part, m⟩ : Member)) =
      ((p.parts ty).findSome? fun part =>
        (part.members.find? test).map fun m => (⟨part, m⟩ : Member)).map
          (Member.outline keep) := by
    have htest : test' ∘ FnDecl.outline keep = test := funext h
    simp only [parts_outline, List.findSome?_map, List.map_findSome?]
    congr 1
    funext part
    simp [Function.comp_def, List.find?_map, ← htest, Member.outline]
  have himplicit (d : FnDecl) : implementsImplicitly (required.outline keep) (d.outline keep) =
      implementsImplicitly required d := by
    simp only [implementsImplicitly, Member.outline_decl, FnDecl.outline_params, List.length_map]
    rfl
  simp only [implementing?]
  rw [hfirst (implementsExplicitly required) _ fun _ => rfl,
    hfirst (implementsImplicitly required) _ himplicit]
  simp [Option.map_or]

/-- Misplaced annotations and disagreements with interfaces depend on outlines. -/
@[simp] theorem contractErrors_outline : (p.outline keep).contractErrors = p.contractErrors := by
  have hplacement : (p.outline keep).placementErrors = p.placementErrors := by
    simp [placementErrors, List.flatMap_map]
  have hparams (a b : FnDecl) :
      paramsDiffer (a.outline keep) (b.outline keep) = paramsDiffer a b := by
    simp [paramsDiffer, List.zip_map, List.any_map, Function.comp_def]
  have hdiffer (t : TypeDecl) (a b : Member) :
      disagrees (t.outline keep) (a.outline keep) (b.outline keep) = disagrees t a b := by
    simp [disagrees, hparams]
  have hrequired (t : TypeDecl) : (p.outline keep).requiredMembers (t.outline keep) =
      (p.requiredMembers t).map (Member.outline keep) := by
    unfold requiredMembers
    by_cases h : t.kind = .interface
    · rw [if_pos h, if_pos (show (t.outline keep).kind = .interface from h), List.map_nil]
    · rw [if_neg h, if_neg (show (t.outline keep).kind ≠ .interface from h)]
      have hall : (p.outline keep).interfaceMembers = fun ty =>
          (p.interfaceMembers ty).map (Member.outline keep) :=
        funext (interfaceMembers_outline keep p)
      simp [hall, List.filter_map, ← List.map_flatMap, Function.comp_def]
  have hcheck (t : TypeDecl) (s : ImplementationState) (required : Member) :
      (p.outline keep).checkImplementation (t.outline keep) s (required.outline keep) =
        p.checkImplementation t s required := by
    simp only [checkImplementation, TypeDecl.outline_name, implementing?_outline]
    cases p.implementing? t.name required with
    | none => rfl
    | some found => simp [hdiffer]
  have himplementation : (p.outline keep).implementationErrors = p.implementationErrors := by
    simp [implementationErrors, List.foldl_map, hrequired, hcheck]
  simp only [contractErrors, hplacement, himplementation]

end Program

end StackEscape
