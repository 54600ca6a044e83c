import StackEscape.Capability.Basic
import StackEscape.Contract.Placement
import StackEscape.Scope.Pair

/-!
# Escape contracts

What a call may assume of a member without looking at its body: how far each parameter and the
receiver may escape in it, and which of them its result may be derived from.

## Main definitions

* `StackEscape.ParamContract` — a parameter or a receiver.
* `StackEscape.ReturnSource` — an input that a result may be derived from.
* `StackEscape.Contract.build` — the contract of a declaration.
-/

set_option autoImplicit false

namespace StackEscape

/-- An input of a member. -/
inductive Input where
  /-- The receiver. -/
  | receiver
  /-- The parameter at a position. -/
  | param (index : Nat)
  deriving DecidableEq, Inhabited, Repr

/-- Which level of an input a result inherits. -/
inductive Via where
  /-- How far a reference to it may escape. -/
  | ref
  /-- How far its value may escape. -/
  | value
  deriving DecidableEq, Inhabited, Repr

/-- An input that a result may be derived from. -/
structure ReturnSource where
  /-- The input. -/
  input : Input
  /-- What of it is inherited. -/
  via : Via
  deriving DecidableEq, Inhabited, Repr

/-- What a member promises of a parameter or of its receiver. -/
structure ParamContract where
  /-- The parameter's name. -/
  name : String
  /-- How it is passed. -/
  refKind : RefKind
  /-- May its type be stack-only? -/
  stackOnly : Bool
  /-- How far its value may escape in the member. -/
  value : Level
  /-- How far a reference to it may escape in the member. -/
  ref : Level
  /-- Is it declared `scoped`? -/
  isScoped : Bool
  /-- Does it carry `UnscopedRef`? -/
  isUnscoped : Bool
  deriving DecidableEq, Inhabited, Repr

namespace ParamContract

/-- How far a value may escape that is not confined: only stack-only values are tied to the
caller. -/
def freeValue (stackOnly : Bool) : Level := if stackOnly then .callingMethod else .unlimited

/-- The levels of a parameter. References may be returned unless the parameter is `scoped`; an `out`
parameter is confined unless it says otherwise. -/
def levels (param : Param) (stackOnly : Bool) : Level × Level :=
  match param.refKind with
  | .none =>
    if stackOnly && param.isScoped then (.currentMethod, .currentMethod)
    else (freeValue stackOnly, .currentMethod)
  | .out => (freeValue stackOnly, if param.isUnscoped then .returnOnly else .currentMethod)
  | .ref | .inRef | .refReadonly =>
    (freeValue stackOnly, if param.isScoped then .currentMethod else .returnOnly)

/-- What is promised of a parameter. -/
def ofParam (param : Param) (stackOnly : Bool) : ParamContract :=
  ⟨param.name, param.refKind, stackOnly, (levels param stackOnly).1, (levels param stackOnly).2,
    param.isScoped, param.isUnscoped⟩

/-- How far a reference to the receiver may escape: never from a class or a constructor, and
otherwise only where the member says so. -/
def receiverRef (owner : TypeDecl) (member : FnDecl) : Level :=
  if owner.kind ≠ .classType && member.isUnscoped && member.kind ≠ .ctor then .returnOnly
  else .currentMethod

/-- What an instance member of a type promises of its receiver. -/
def receiver (owner : TypeDecl) (member : FnDecl) : ParamContract :=
  let stackOnly := decide (owner.kind = .refStruct)
  ⟨"this", if owner.kind.isStructLike then .ref else .none, stackOnly, freeValue stackOnly,
    receiverRef owner member, false, member.isUnscoped⟩

/-- The pair with which the parameter is bound in the member's body. -/
def pair (c : ParamContract) : ScopePair := ⟨c.value, c.ref, false⟩

/-- Can the callee write through the argument? -/
def isWritableRef (c : ParamContract) : Bool :=
  match c.refKind with
  | .ref | .out => true
  | _ => false

/-- What a result may inherit from the parameter. -/
def vias (c : ParamContract) : List Via :=
  if c.refKind = .out then if c.isUnscoped then [.ref] else []
  else
    (if c.refKind.isByRef && !c.isScoped then [.ref] else []) ++
    (if c.stackOnly && !(c.refKind = .none && c.isScoped) then [.value] else [])

end ParamContract

/-- What a call may assume of a member. -/
structure Contract where
  /-- The member's key. -/
  member : String
  /-- The receiver, if there is one. -/
  receiver : Option ParamContract
  /-- The parameters. -/
  params : List ParamContract
  /-- Does it return a reference? -/
  returnsByRef : Bool
  /-- May what it returns be stack-only? -/
  returnsStackOnly : Bool
  /-- The inputs from which its result may be derived. -/
  returnSources : List ReturnSource
  /-- Does the member carry `UnscopedRef`? -/
  isUnscoped : Bool
  /-- Does it never write through its receiver? -/
  isReadonly : Bool
  /-- Are its annotations well placed? If not, calls give up and report nothing more. -/
  valid : Bool
  deriving DecidableEq, Inhabited, Repr

namespace Contract

/-- What a result may inherit from the receiver: its value always, a reference if the member says
so. -/
def receiverSources (member : FnDecl) : List ReturnSource :=
  (if member.isUnscoped then [⟨.receiver, .ref⟩] else []) ++ [⟨.receiver, .value⟩]

/-- What a result may inherit from the parameters, by position. -/
def paramSources (params : List ParamContract) : List ReturnSource :=
  params.zipIdx.flatMap fun (c, i) => c.vias.map fun via => ⟨.param i, via⟩

/-- The contract of a member or local function. -/
def build (caps : Capabilities) (p : Program) (owner : TypeDecl) (decl : FnDecl) (key : String)
    (scope : GenericScope) (isLocal : Bool) : Contract :=
  let hasReceiver := !decl.modifiers.isStatic && !isLocal
  let params := decl.params.map fun q => ParamContract.ofParam q (caps.stackOnly p scope q.ty)
  { member := key
    receiver := if hasReceiver then some (ParamContract.receiver owner decl) else none
    params := params
    returnsByRef := decl.ret.isByRef
    returnsStackOnly := caps.stackOnly p scope decl.ret.ty
    returnSources := (if hasReceiver then receiverSources decl else []) ++ paramSources params
    isUnscoped := decl.isUnscoped
    isReadonly := decl.modifiers.isReadonly || owner.isReadonly
    valid := (placementErrors owner decl key isLocal).isEmpty }

/-- The contract of a declared member. -/
def ofMember (caps : Capabilities) (p : Program) (m : Member) : Contract :=
  build caps p m.owner m.decl m.key m.innerScope false

end Contract

end StackEscape
