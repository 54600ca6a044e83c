import Mathlib
import StackEscape.Proofs.BodyHeeding

/-!
# The types of declarations

A run without errors has looked at the types of fields, at the types in the signatures of members, at
those of local variables, resources and variables of patterns, and at those of the parameters of nested
functions: all of them are well-shaped, at every depth. A few places are passed over: the types that a
type is based on, primary constructor parameters, the results of nested functions, and variables that an
iteration or a call declares. There an array of stack-only elements is accepted.

## Main definitions

* `StackEscape.Declarations.State.Before` — what was reported and filed is kept.
* `StackEscape.TypePlace`, `Program.HasType` — the places at which declarations have types.
* `StackEscape.TypePlace.IsChecked` — those at which types are looked at.

## Main results

* `StackEscape.Declarations.wellShaped_checkFields`, `wellShaped_checkMember` — what a step without
  errors has looked at.
* `StackEscape.Program.wellShaped_of_isOk` — where types are looked at, those of a program without errors
  are well-shaped.
* `StackEscape.Racks.misshapen_unreported` — elsewhere they need not be.

## Implementation notes

Types are looked at with the capabilities that are filed by then. Since all type parameters in scope are
among them, the tables at the end of the run say the same.
-/

set_option autoImplicit false

namespace StackEscape

namespace Declarations

/-! ## The pass goes on -/

/-- The second state comes after the first: what was reported and filed is kept. -/
structure State.Before (s t : State) : Prop where
  /-- More errors are added at the end. -/
  errors : ∃ es, t.errors = s.errors ++ es
  /-- More capabilities are filed. -/
  within : s.caps.Within t.caps

namespace State.Before

variable {s t u : State}

theorem refl (s : State) : s.Before s := ⟨⟨[], by simp⟩, .refl _⟩

theorem trans (hst : s.Before t) (htu : t.Before u) : s.Before u := by
  obtain ⟨es, hes⟩ := hst.errors
  obtain ⟨fs, hfs⟩ := htu.errors
  exact ⟨⟨es ++ fs, by rw [hfs, hes, List.append_assoc]⟩, hst.within.trans htu.within⟩

/-- If nothing is reported in the end, nothing was reported before. -/
theorem errors_eq_nil (h : s.Before t) (ht : t.errors = []) : s.errors = [] := by
  obtain ⟨es, hes⟩ := h.errors
  exact (List.append_eq_nil_iff.1 (hes.symm.trans ht)).1

/-- A pass whose steps go on goes on. -/
theorem foldl {α : Type} {f : State → α → State} (h : ∀ (s : State) a, s.Before (f s a))
    (l : List α) (s : State) : s.Before (l.foldl f s) := by
  induction l generalizing s with
  | nil => exact .refl s
  | cons a rest ih => exact (h s a).trans (ih _)

/-- Every element has its step in the pass. -/
theorem exists_step {α : Type} {f : State → α → State} (h : ∀ (s : State) a, s.Before (f s a))
    {l : List α} {a : α} (ha : a ∈ l) (s : State) :
    ∃ t, s.Before t ∧ (f t a).Before (l.foldl f s) := by
  obtain ⟨before, later, rfl⟩ := List.append_of_mem ha
  rw [List.foldl_append, List.foldl_cons]
  exact ⟨before.foldl f s, .foldl h before s, .foldl h later _⟩

end State.Before

variable {p : Program} {runtime : Bool} {s : State}

/-- Reporting goes on. -/
theorem before_report (s : State) (errors : List TypeError) : s.Before (s.report errors) :=
  ⟨⟨errors, rfl⟩, .refl _⟩

theorem before_checkTypeClause (runtime : Bool) (owner : String) (s : State) (q : TypeParam) :
    s.Before (checkTypeClause runtime owner s q) := by
  unfold checkTypeClause
  split
  · exact .refl s
  · exact ⟨⟨_, rfl⟩, .refl _⟩

theorem before_checkMember (p : Program) (runtime : Bool) (s : State) (place : Place) (m : Member) :
    s.Before (checkMember p runtime s place m) :=
  ⟨⟨_, List.append_assoc ..⟩, within_checkMember p runtime s place m⟩

/-- The fields of a part are looked at after its clauses. -/
def checkFields (p : Program) (runtime : Bool) (s : State) (t : TypeDecl) : State :=
  let s := t.typeParams.foldl (checkTypeClause runtime t.name) s
  let env : TypeEnv := ⟨p, s.caps, .push [] t.name t.typeParams, runtime⟩
  s.report (t.fields.flatMap (env.fieldErrors t))

/-- After the fields of a part come its members. -/
theorem checkPart_eq (p : Program) (runtime : Bool) (s : State) (i : Nat) (t : TypeDecl) :
    checkPart p runtime s i t =
      t.members.zipIdx.foldl (fun s x => checkMember p runtime s (i, x.2) ⟨t, x.1⟩)
        (checkFields p runtime s t) := rfl

theorem before_checkFields (p : Program) (runtime : Bool) (s : State) (t : TypeDecl) :
    s.Before (checkFields p runtime s t) :=
  (State.Before.foldl (before_checkTypeClause runtime t.name) t.typeParams s).trans
    (before_report _ _)

theorem before_checkMembers (p : Program) (runtime : Bool) (s : State) (i : Nat) (t : TypeDecl) :
    (checkFields p runtime s t).Before (checkPart p runtime s i t) := by
  rw [checkPart_eq]
  exact .foldl (fun s (x : FnDecl × Nat) => before_checkMember p runtime s (i, x.2) ⟨t, x.1⟩) _ _

theorem before_checkPart (p : Program) (runtime : Bool) (s : State) (i : Nat) (t : TypeDecl) :
    s.Before (checkPart p runtime s i t) :=
  (before_checkFields p runtime s t).trans (before_checkMembers p runtime s i t)

/-! ## What a step looks at -/

/-- Where nothing is wrong with a field, its type is well-shaped. -/
theorem wellShaped_of_fieldErrors {env : TypeEnv} {t : TypeDecl} {f : FieldDecl}
    (h : env.fieldErrors t f = []) : env.WellShaped f.ty :=
  TypeEnv.typeErrors_eq_nil_iff f.ty |>.1 (List.append_eq_nil_iff.1 h).2

/-- A part without errors has well-shaped fields. -/
theorem wellShaped_checkFields {t : TypeDecl} (h : (checkFields p runtime s t).errors = []) :
    ∀ f ∈ t.fields, TypeEnv.WellShaped ⟨p, s.caps, .push [] t.name t.typeParams, runtime⟩ f.ty := by
  intro f hf
  have hnone := List.flatMap_eq_nil_iff.1 (List.append_eq_nil_iff.1 h).2 f hf
  rw [caps_foldl_checkTypeClause] at hnone
  exact wellShaped_of_fieldErrors hnone

/-- A member without errors has a well-shaped signature. -/
theorem wellShaped_checkMember {place : Place} {m : Member}
    (h : (checkMember p runtime s place m).errors = []) :
    let env : TypeEnv := ⟨p, (checkMember p runtime s place m).caps, m.innerScope, runtime⟩
    (∀ q ∈ m.decl.params, env.WellShaped q.ty) ∧ env.WellShaped m.decl.ret.ty := by
  have hsignature : signatureErrors p runtime (checkMember p runtime s place m).caps m = [] :=
    (List.append_eq_nil_iff.1 (List.append_eq_nil_iff.1 h).2).2
  obtain ⟨hparams, hret⟩ := List.append_eq_nil_iff.1 hsignature
  refine ⟨fun q hq => ?_, TypeEnv.typeErrors_eq_nil_iff _ |>.1 hret⟩
  exact TypeEnv.typeErrors_eq_nil_iff q.ty |>.1 (List.flatMap_eq_nil_iff.1 hparams q hq)

/-! ## The whole pass -/

/-- The state in which all types are entered. -/
def entered (p : Program) : State := (firstParts [] p.types).foldl (enterType p) ⟨.empty, [], []⟩

/-- The state at the end. -/
def finished (p : Program) (runtime : Bool) : State :=
  p.types.zipIdx.foldl (fun s x => checkPart p runtime s x.2 x.1) (entered p)

theorem checkDeclarations_eq (p : Program) (runtime : Bool) :
    p.checkDeclarations runtime .empty = ((finished p runtime).caps, (finished p runtime).errors) :=
  rfl

/-- Every part of a type has its step in the pass. -/
theorem exists_checkPart {t : TypeDecl} (ht : t ∈ p.types) : ∃ s i, (entered p).Before s ∧
    (checkPart p runtime s i t).Before (finished p runtime) := by
  obtain ⟨i, hi⟩ := List.mem_iff_getElem?.1 ht
  have hplace : (t, i) ∈ p.types.zipIdx := List.mem_zipIdx_iff_getElem?.2 hi
  obtain ⟨s, hs, hlater⟩ := State.Before.exists_step
    (fun s (x : TypeDecl × Nat) => before_checkPart p runtime s x.2 x.1) hplace (entered p)
  exact ⟨s, i, hs, hlater⟩

/-- Every member has its step in the pass. -/
theorem exists_checkMember {m : Member} (hm : m ∈ p.members) : ∃ s place, (entered p).Before s ∧
    (checkMember p runtime s place m).Before (finished p runtime) := by
  obtain ⟨ht, hd⟩ := Program.mem_members_iff.1 hm
  obtain ⟨s, i, hs, hlater⟩ := exists_checkPart (p := p) ht
  obtain ⟨j, hj⟩ := List.mem_iff_getElem?.1 hd
  have hplace : (m.decl, j) ∈ m.owner.members.zipIdx := List.mem_zipIdx_iff_getElem?.2 hj
  obtain ⟨u, hu, hrest⟩ := State.Before.exists_step
    (fun s (x : FnDecl × Nat) => before_checkMember p runtime s (i, x.2) ⟨m.owner, x.1⟩) hplace
    (checkFields p runtime s m.owner)
  exact ⟨u, (i, j), (hs.trans (before_checkFields p runtime s m.owner)).trans hu,
    hrest.trans hlater⟩

/-- Once all types are entered, the type parameters of any part may be in scope. -/
theorem filed_entered (hparts : p.AlignedParts) (hs : (entered p).Before s) {t : TypeDecl}
    (ht : t ∈ p.types) : (GenericScope.push [] t.name t.typeParams).Filed s.caps := by
  exact (GenericScope.filed_nil s.caps).push fun q hq => hs.within.isSome (Program.isSome_enterTypes hparts ht hq)

/-- The step of a member files its own type parameters. -/
theorem filed_checkMember (runtime : Bool) (hparts : p.AlignedParts) (hs : (entered p).Before s)
    {m : Member} (hm : m ∈ p.members) (place : Place) :
    m.innerScope.Filed (checkMember p runtime s place m).caps := by
  have hlater := hs.trans (before_checkMember p runtime s place m)
  exact (filed_entered hparts hlater (Program.mem_members_iff.1 hm).1).push
    fun q hq => isSome_fillMember s.caps hm hq

/-- From then on, those of all types have capabilities. -/
theorem entered_before (hparts : p.AlignedParts) (hs : (entered p).Before s) : p.Entered s.caps :=
  fun _ ht _ hq => hs.within.isSome (Program.isSome_enterTypes hparts ht hq)

end Declarations

/-! ## Programs without errors -/

/-- The kinds of place at which a declaration has a type. -/
inductive TypePlace where
  /-- A field. -/
  | field
  /-- A type that a type is based on. -/
  | base
  /-- A parameter of a primary constructor. -/
  | primaryParam
  /-- A parameter of a member. -/
  | param
  /-- The result of a member. -/
  | result
  /-- A typed part of a body, at any depth. -/
  | body (role : TypedRole)

/-- The places at which types are looked at. Variables of an iteration or a call are not, and neither
are values. The parameters of local functions are bound by the contracts that are filed under their
keys. -/
def TypePlace.IsChecked (p : Program) : TypePlace → Prop
  | field | param | result | body .written => True
  | body (.param byContract) => byContract = true → p.DistinctKeys ∧ p.PlainLocalFunctions
  | base | primaryParam | body .result | body .binding | body .value => False

namespace Program

open Declarations

variable {p : Program} {place : TypePlace} {g : GenericScope} {ty : TypeRef}

/-- What types mean when the run is over, with these type parameters in scope. -/
def typesAt (p : Program) (g : GenericScope) : TypeEnv := ⟨p, (p.analyze {}).tables.caps, g, true⟩

/-- At a place of some kind, with these type parameters in scope, the program has a type. -/
inductive HasType (p : Program) : TypePlace → GenericScope → TypeRef → Prop where
  | field {t : TypeDecl} {f : FieldDecl} (ht : t ∈ p.types) (hf : f ∈ t.fields) :
    p.HasType .field (.push [] t.name t.typeParams) f.ty
  | base {t : TypeDecl} {ty : TypeRef} (ht : t ∈ p.types) (hty : ty ∈ t.interfaces) :
    p.HasType .base (.push [] t.name t.typeParams) ty
  | primaryParam {t : TypeDecl} {q : Param} (ht : t ∈ p.types) (hq : q ∈ t.primaryParams) :
    p.HasType .primaryParam (.push [] t.name t.typeParams) q.ty
  | param {m : Member} {q : Param} (hm : m ∈ p.members) (hq : q ∈ m.decl.params) :
    p.HasType .param m.innerScope q.ty
  | result {m : Member} (hm : m ∈ p.members) : p.HasType .result m.innerScope m.decl.ret.ty
  | body {m : Member} {x : TypedPart} (hm : m ∈ p.members)
    (hx : x ∈ TypedPart.ofBody m m.setting m.decl.body) :
    p.HasType (.body x.role) x.setting.scope x.ty

/-- What is filed when all declarations are checked is filed at the end. -/
theorem within_analyze (p : Program) :
    (finished p true).caps.Within (p.analyze {}).tables.caps := by
  rw [analyze_default]
  exact (passes_checkMembers p true (p.declaredTables true) p.bodies).1

/-- In a run without errors, the check of declarations finds none. -/
theorem errors_finished (hok : (p.analyze {}).isOk = true) : (finished p true).errors = [] := by
  rw [analyze_default] at hok
  simp only [checkDeclarations_eq, Analysis.isOk, Bool.and_eq_true, List.isEmpty_iff] at hok
  exact hok.1

/-- What was well-shaped when it was looked at is so at the end. -/
theorem wellShaped_analyze (hparts : p.AlignedParts) {s : State} (hs : (entered p).Before s)
    (hlater : s.Before (finished p true)) (hg : g.Filed s.caps)
    (h : TypeEnv.WellShaped ⟨p, s.caps, g, true⟩ ty) : (p.typesAt g).WellShaped ty :=
  TypeEnv.wellShaped_within true hg (entered_before hparts hs)
    (hlater.within.trans p.within_analyze) ty |>.1 h

/-- The fields of a type are well-shaped. -/
theorem wellShaped_field (hparts : p.AlignedParts) (hok : (p.analyze {}).isOk = true)
    {t : TypeDecl} (ht : t ∈ p.types) :
    ∀ f ∈ t.fields, (p.typesAt (.push [] t.name t.typeParams)).WellShaped f.ty := by
  intro f hf
  obtain ⟨s, i, hs, hlater⟩ := exists_checkPart ht
  have hrest := (before_checkMembers p true s i t).trans hlater
  have hfound := wellShaped_checkFields (hrest.errors_eq_nil (errors_finished hok)) f hf
  exact wellShaped_analyze hparts hs ((before_checkFields p true s t).trans hrest)
    (filed_entered hparts hs ht) hfound

/-- The signature of a member is well-shaped. -/
theorem wellShaped_signature (hparts : p.AlignedParts) (hok : (p.analyze {}).isOk = true)
    {m : Member} (hm : m ∈ p.members) :
    (∀ q ∈ m.decl.params, (p.typesAt m.innerScope).WellShaped q.ty) ∧
      (p.typesAt m.innerScope).WellShaped m.decl.ret.ty := by
  obtain ⟨s, place, hs, hlater⟩ := exists_checkMember hm
  obtain ⟨hparams, hret⟩ := wellShaped_checkMember (hlater.errors_eq_nil (errors_finished hok))
  have hown := hs.trans (before_checkMember p true s place m)
  have hfiled := filed_checkMember true hparts hs hm place
  exact ⟨fun q hq => wellShaped_analyze hparts hown hlater hfiled (hparams q hq),
    wellShaped_analyze hparts hown hlater hfiled hret⟩

/-- **The types of declarations.** In a program without errors, every type at a place that is looked at
is well-shaped: at no depth is there an array of stack-only elements, or a stack-only type argument where
none is admitted. -/
theorem wellShaped_of_isOk (hparts : p.AlignedParts) (hreg : p.RegularPatterns)
    (hok : (p.analyze {}).isOk = true) (hplace : place.IsChecked p) (h : p.HasType place g ty) :
    (p.typesAt g).WellShaped ty := by
  cases h with
  | field ht hf => exact wellShaped_field hparts hok ht _ hf
  | base => exact hplace.elim
  | primaryParam => exact hplace.elim
  | param hm hq => exact (wellShaped_signature hparts hok hm).1 _ hq
  | result hm => exact (wellShaped_signature hparts hok hm).2
  | @body m x hm hx =>
    have hheeded := heeded_of_isOk hparts hreg And.left And.right hok hm x hx
    obtain ⟨c, role, ty⟩ := x
    cases role with
    | written => exact hheeded
    | param byContract => exact hheeded hplace
    | value => exact hplace.elim
    | result => exact hplace.elim
    | binding => exact hplace.elim

end Program

/-! ## Places that are passed over -/

namespace Racks

open Slots

/-- Racks hold values of types that may live on the heap. -/
def rackDecl : TypeDecl :=
  ⟨2, "Rack", .interface, false, false, [⟨"T", [], .zero⟩], [], [], [], [], .zero⟩

/-- A rack of slots. -/
def rackTy : TypeRef := .named "Rack" [slotTy]

/-- A function that goes over things. -/
def run (body : List Stmt) : FnDecl :=
  fn 7 "Run" [⟨"o", .object, .none, false, [], .zero⟩, ⟨"d", .dynamic, .none, false, [], .zero⟩]
    .nothing body

/-- The class of the function. -/
def decl (bases : List TypeRef) (primary : List Param) (body : List Stmt) : TypeDecl :=
  ⟨6, "Racks", .classType, false, false, [], bases, primary, [], [run body], .zero⟩

/-- The function in its class. -/
def member (body : List Stmt) : Member := ⟨decl [] [] body, run body⟩

/-- A program with slots, racks and the class. -/
def programOf (bases : List TypeRef) (primary : List Param) (body : List Stmt) : Program :=
  ⟨[⟨1, "Slot", .refStruct, false, false, [], [], [], [], [], .zero⟩, rackDecl,
    decl bases primary body]⟩

/-- A class that is based on a type. -/
def based (ty : TypeRef) : Program := programOf [ty] [] []

/-- A parameter of a type. -/
def input (ty : TypeRef) : Param := ⟨"s", ty, .none, false, [], .zero⟩

/-- A class whose primary constructor takes a value. -/
def constructed (ty : TypeRef) : Program := programOf [] [input ty] []

/-- A local function without parameters. -/
def next (ty : TypeRef) : FnDecl := fn 8 "Next" [] (.byValue ty) []

/-- A local function that returns a value. -/
def returned (ty : TypeRef) : Program := programOf [] [] [⟨9, .localFunction (next ty), .zero⟩]

/-- A lambda without parameters. -/
def make (ty : TypeRef) : Lambda := ⟨[], ty, [], false, false, false⟩

/-- A statement that makes a lambda. -/
def madeStmt (ty : TypeRef) : Stmt :=
  ⟨9, .expr ⟨10, .lambda (make ty), .object, .zero⟩, .zero⟩

/-- A lambda that returns a value. -/
def made (ty : TypeRef) : Program := programOf [] [] [madeStmt ty]

/-- An iteration over values. -/
def iterated (ty : TypeRef) : Program :=
  let next : MemberRef := ⟨.named "Racks" [], "Next"⟩
  programOf [] [] [⟨9, .localFunction (Racks.next .object), .zero⟩,
    ⟨10, .foreach ⟨.declaration "s" ty .zero, false, ⟨11, .var "o", .object, .zero⟩,
      ⟨.object, .object, next, next, next, none⟩, false, []⟩, .zero⟩]

/-- A late-bound call that yields a value. -/
def yielded (ty : TypeRef) : Program :=
  programOf [] [] [⟨9, .expr ⟨10, .dynamicInvoke ⟨11, .var "d", .dynamic, .zero⟩ "Give"
    [⟨.out, ⟨12, .outVar "s", ty, .zero⟩⟩], .dynamic, .zero⟩, .zero⟩]

/-- A declaration of a local variable. -/
def declaredStmt (ty : TypeRef) : Stmt := ⟨9, .declare ⟨"s", ty, .none, false, none, .zero⟩, .zero⟩

/-- A local variable. -/
def declared (ty : TypeRef) : Program := programOf [] [] [declaredStmt ty]

/-- A part of the statements is a part of the program. -/
theorem hasType_body {body : List Stmt} {x : TypedPart}
    (hx : x ∈ TypedPart.ofStmts (member body) (member body).setting body) :
    (programOf [] [] body).HasType (.body x.role) x.setting.scope x.ty :=
  .body (List.mem_singleton_self _) hx

/-- The class is one of the types of the program. -/
theorem decl_mem_types (bases : List TypeRef) (primary : List Param) (body : List Stmt) :
    decl bases primary body ∈ (programOf bases primary body).types :=
  List.mem_of_getElem? (i := 2) rfl

/-- A program without errors has a type at such a place that is not well-shaped. -/
def Unreported (place : TypePlace) (p : Program) (ty : TypeRef) : Prop :=
  (p.analyze {}).isOk = true ∧ ∃ g, p.HasType place g ty ∧ ¬ (p.typesAt g).WellShaped ty

/-- A type is not well-shaped if the check of types finds something. -/
theorem unreported_of_typeErrors {place : TypePlace} {p : Program} {g : GenericScope} {ty : TypeRef}
    (hok : (p.analyze {}).isOk = true) (hty : p.HasType place g ty)
    (hfound : ((p.typesAt g).typeErrors .zero ty).isEmpty = false) : Unreported place p ty := by
  refine ⟨hok, g, hty, fun hshaped => ?_⟩
  have hnone : (p.typesAt g).typeErrors .zero ty = [] :=
    (TypeEnv.typeErrors_eq_nil_iff ty).2 hshaped
  rw [hnone] at hfound
  exact absurd hfound (by decide)

/-- A rack of slots is accepted as the base of a class, and an array of slots wherever else types are
passed over: in a primary constructor, as the result of a local function or a lambda, in an iteration and
in a call that declares a variable. -/
theorem misshapen_unreported :
    Unreported .base (based rackTy) rackTy ∧
    Unreported .primaryParam (constructed (.array slotTy)) (.array slotTy) ∧
    Unreported (.body .result) (returned (.array slotTy)) (.array slotTy) ∧
    Unreported (.body .result) (made (.array slotTy)) (.array slotTy) ∧
    Unreported (.body .binding) (iterated (.array slotTy)) (.array slotTy) ∧
    Unreported (.body .binding) (yielded (.array slotTy)) (.array slotTy) := by
  have hbased : (based rackTy).HasType .base _ rackTy :=
    .base (decl_mem_types [rackTy] [] []) (List.mem_singleton_self _)
  have hconstructed (ty : TypeRef) : (constructed ty).HasType .primaryParam _ ty :=
    .primaryParam (decl_mem_types [] [input ty] []) (List.mem_singleton_self (input ty))
  have hreturned (ty : TypeRef) : (returned ty).HasType (.body .result) _ ty :=
    hasType_body (x := ⟨_, .result, ty⟩) (List.mem_of_getElem? (i := 0) rfl)
  have hmade (ty : TypeRef) : (made ty).HasType (.body .result) _ ty :=
    hasType_body (x := ⟨_, .result, ty⟩) (List.mem_of_getElem? (i := 1) rfl)
  have hiterated (ty : TypeRef) : (iterated ty).HasType (.body .binding) _ ty :=
    hasType_body (x := ⟨_, .binding, ty⟩) (List.mem_of_getElem? (i := 2) rfl)
  have hyielded (ty : TypeRef) : (yielded ty).HasType (.body .binding) _ ty :=
    hasType_body (x := ⟨_, .binding, ty⟩) (List.mem_of_getElem? (i := 3) rfl)
  refine ⟨unreported_of_typeErrors ?_ hbased ?_, unreported_of_typeErrors ?_ (hconstructed _) ?_,
    unreported_of_typeErrors ?_ (hreturned _) ?_, unreported_of_typeErrors ?_ (hmade _) ?_,
    unreported_of_typeErrors ?_ (hiterated _) ?_, unreported_of_typeErrors ?_ (hyielded _) ?_⟩
  all_goals cbv

/-- Where a local variable is declared, they are reported. -/
example : ((declared (.array slotTy)).analyze {}).escapeErrors =
    [⟨.shape (.arrayOfStackOnlyType "Slot"), .zero⟩] := by
  cbv

/-- A variable for an array of racks is well-shaped, in a program that declares it. -/
theorem wellShaped_of_isOk_declared :
    let ty : TypeRef := .array (.named "Rack" [.int])
    let p := declared ty
    let g := (member [declaredStmt ty]).innerScope
    p.AlignedParts ∧ p.RegularPatterns ∧ (p.analyze {}).isOk = true ∧
      TypePlace.IsChecked p (.body .written) ∧ p.HasType (.body .written) g ty ∧
      (p.typesAt g).WellShaped ty := by
  intro ty p g
  have hparts : p.AlignedParts := by decide +kernel
  have hreg : p.RegularPatterns := by decide +kernel
  have hok : (p.analyze {}).isOk = true := by cbv
  have hplace : TypePlace.IsChecked p (.body .written) := trivial
  have hty : p.HasType (.body .written) g ty :=
    hasType_body (x := ⟨(member [declaredStmt ty]).setting, .written, ty⟩)
      (List.mem_of_getElem? (i := 0) rfl)
  exact ⟨hparts, hreg, hok, hplace, hty, Program.wellShaped_of_isOk hparts hreg hok hplace hty⟩

end Racks

end StackEscape
