import StackEscape.Proofs.Shapes
import StackEscape.Proofs.Sinks

/-!
# The types in a body

Every place of a body that has a type: the values of its expressions, the types that are written in
declarations, its parameters and its other variables, and the results of nested functions, each with the
type parameters in scope there and with whether its function may be suspended. A statement about "every
parameter at every depth" is a statement about these parts.

## Main definitions

* `StackEscape.Setting` — the type parameters in scope, and whether the innermost function may be
  suspended.
* `StackEscape.TypedRole`, `TypedPart` — what a type belongs to, and a type in its setting.
* `StackEscape.TypedPart.ofExpr`, `ofPattern`, `ofStmts` — the parts of a body, at every depth.
* `StackEscape.Member.typedParts` — the parameters of a member and the parts of its body.

## Implementation notes

The functions have the recursion of the tree, as those that collect sites. The target of a by-value
assignment to a property is passed over, since it is no value but a call of the setter.
-/

set_option autoImplicit false

namespace StackEscape

/-- May a call of the function be suspended, so that its variables move to the heap? -/
def FnDecl.suspends (d : FnDecl) : Bool := d.modifiers.isAsync || d.modifiers.isIterator

/-- What surrounds a type in a body. -/
structure Setting where
  /-- The type parameters in scope. -/
  scope : GenericScope
  /-- May the innermost function be suspended? -/
  suspends : Bool

namespace Setting

/-- The inside of a lambda. -/
def lambda (c : Setting) (isAsync : Bool) : Setting := { c with suspends := isAsync }

/-- The inside of a local function of a member. -/
def localFunction (m : Member) (c : Setting) (d : FnDecl) : Setting :=
  ⟨c.scope.push (m.localKey d) d.typeParams, d.suspends⟩

/-- What types mean in the setting. -/
def types (c : Setting) (env : Surroundings) (caps : Capabilities) : TypeEnv :=
  ⟨env.program, caps, c.scope, env.runtime⟩

end Setting

/-- What a type belongs to. -/
inductive TypedRole where
  /-- The value of an expression. -/
  | value
  /-- A type as it is written in a declaration. -/
  | written
  /-- A parameter of a nested function or of a member; the contract of a lambda is never filed. -/
  | param (byContract : Bool)
  /-- The type that a nested function returns. -/
  | result
  /-- Any other variable. -/
  | binding
  deriving DecidableEq

namespace TypedRole

/-- Is it a variable? -/
def isVariable : TypedRole → Bool
  | param _ | binding => true
  | value | written | result => false

end TypedRole

/-- A type in a body. -/
structure TypedPart where
  /-- Where it is. -/
  setting : Setting
  /-- What it belongs to. -/
  role : TypedRole
  /-- The type. -/
  ty : TypeRef

namespace TypedPart

/-- The variables that arguments declare in place. -/
def outVars (c : Setting) (args : List Arg) : List TypedPart :=
  (args.filter fun x => x.expr.isOutVar).map fun x => ⟨c, .binding, x.expr.ty⟩

/-- The parameters of a function. -/
def ofParams (c : Setting) (byContract : Bool) (params : List Param) : List TypedPart :=
  params.map fun q => ⟨c, .param byContract, q.ty⟩

mutual

/-- The parts of an expression, its own value first. -/
def ofExpr (m : Member) (c : Setting) : Expr → List TypedPart
  | ⟨_, kind, ty, _⟩ => ⟨c, .value, ty⟩ :: ofKind m c kind

/-- The parts of an expression by its form. -/
def ofKind (m : Member) (c : Setting) : ExprKind → List TypedPart
  | .literal _ | .var _ | .thisRef | .outVar _ => []
  | .field receiver _ _ => ofOptional m c receiver
  | .property receiver _ args | .call receiver _ _ args =>
    ofReceiver m c receiver ++ (ofArgs m c args ++ outVars c args)
  | .create ctor args => ofArgs m c args ++ if ctor.isSome then outVars c args else []
  | .stackAlloc _ len => ofExpr m c len
  | .conditional cond thenExpr elseExpr _ =>
    ofExpr m c cond ++ (ofExpr m c thenExpr ++ ofExpr m c elseExpr)
  | .convert operand _ => ofExpr m c operand
  | .binary _ left right => ofExpr m c left ++ ofExpr m c right
  | .test operand pattern => ofExpr m c operand ++ ofPattern m c pattern
  | .lambda fn => ofLambda m c fn
  | .arrayNew _ elems => ofExprs m c elems
  | .anonymous members => ofMembers m c members
  | .await operand => ofExpr m c operand
  | .dynamicInvoke receiver _ args => ofExpr m c receiver ++ (ofValues m c args ++ outVars c args)

/-- The parts of a receiver or an initial value. -/
def ofOptional (m : Member) (c : Setting) : Option Expr → List TypedPart
  | none => []
  | some e => ofExpr m c e

/-- The parts of the receiver of a call. -/
def ofReceiver (m : Member) (c : Setting) : Option Expr → List TypedPart
  | none => []
  | some e => if e.isOutVar then [] else ofExpr m c e

/-- The parts of the arguments of a call. A variable declared in place has no value yet. -/
def ofArgs (m : Member) (c : Setting) : List Arg → List TypedPart
  | [] => []
  | ⟨_, e⟩ :: rest => (if e.isOutVar then [] else ofExpr m c e) ++ ofArgs m c rest

/-- The parts of arguments of which only the values matter. -/
def ofValues (m : Member) (c : Setting) : List Arg → List TypedPart
  | [] => []
  | ⟨_, e⟩ :: rest => ofExpr m c e ++ ofValues m c rest

/-- The parts of array elements. -/
def ofExprs (m : Member) (c : Setting) : List Expr → List TypedPart
  | [] => []
  | e :: rest => ofExpr m c e ++ ofExprs m c rest

/-- The parts of the members of an anonymous object. -/
def ofMembers (m : Member) (c : Setting) : List NamedExpr → List TypedPart
  | [] => []
  | ⟨_, e⟩ :: rest => ofExpr m c e ++ ofMembers m c rest

/-- The parts of a lambda, its signature first. -/
def ofLambda (m : Member) (c : Setting) : Lambda → List TypedPart
  | ⟨params, retTy, body, _, _, isAsync⟩ =>
    ⟨c.lambda isAsync, .result, retTy⟩ ::
      (ofParams (c.lambda isAsync) false params ++ ofStmts m (c.lambda isAsync) body)

/-- The parts of a pattern. -/
def ofPattern (m : Member) (c : Setting) : Pattern → List TypedPart
  | .discard | .typeTest _ => []
  | .declaration _ ty _ => [⟨c, .written, ty⟩, ⟨c, .binding, ty⟩]
  | .constant e => ofExpr m c e
  | .property _ subpatterns => ofSubPatterns m c subpatterns
  | .positional _ subpatterns _ => ofPatterns m c subpatterns
  | .negated inner => ofPattern m c inner

/-- The parts of the entries of a property pattern. -/
def ofSubPatterns (m : Member) (c : Setting) : List SubPattern → List TypedPart
  | [] => []
  | ⟨_, _, pattern, _⟩ :: rest => ofPattern m c pattern ++ ofSubPatterns m c rest

/-- The parts of the parts of a positional pattern. -/
def ofPatterns (m : Member) (c : Setting) : List Pattern → List TypedPart
  | [] => []
  | pattern :: rest => ofPattern m c pattern ++ ofPatterns m c rest

/-- The written type of a local variable, and the parts of its initial value. -/
def ofLocal (m : Member) (c : Setting) : LocalDecl → List TypedPart
  | ⟨_, ty, _, _, init, _⟩ => ⟨c, .written, ty⟩ :: ofOptional m c init

/-- The parts of some statements, at every depth. -/
def ofStmts (m : Member) (c : Setting) : List Stmt → List TypedPart
  | [] => []
  | s :: rest => ofStmt m c s ++ ofStmts m c rest

/-- The parts of a statement. -/
def ofStmt (m : Member) (c : Setting) : Stmt → List TypedPart
  | ⟨_, .expr e, _⟩ | ⟨_, .yieldReturn e, _⟩ | ⟨_, .ret (some e), _⟩ => ofExpr m c e
  | ⟨_, .declare decl, _⟩ => ofLocal m c decl ++ [⟨c, .binding, decl.ty⟩]
  | ⟨_, .assign ⟨_, .property receiver _ args, _, _⟩ value false, _⟩ =>
    ofReceiver m c receiver ++ (ofArgs m c args ++
      ((if value.isOutVar then [] else ofExpr m c value) ++ outVars c (args ++ [⟨.none, value⟩])))
  | ⟨_, .assign target value _, _⟩ => ofExpr m c target ++ ofExpr m c value
  | ⟨_, .ret none, _⟩ => []
  | ⟨_, .block body, _⟩ => ofStmts m c body
  | ⟨_, .ifElse cond thenBranch elseBranch, _⟩ =>
    ofExpr m c cond ++ (ofStmts m c thenBranch ++ ofElse m c elseBranch)
  | ⟨_, .whileLoop cond body, _⟩ => ofExpr m c cond ++ ofStmts m c body
  | ⟨_, .foreach loop, _⟩ => ofForeach m c loop
  | ⟨_, .using region, _⟩ => ofUsing m c region
  | ⟨_, .localFunction decl, _⟩ => ofLocalFunction m c decl

/-- The parts of the second branch of a conditional statement. -/
def ofElse (m : Member) (c : Setting) : Option (List Stmt) → List TypedPart
  | none => []
  | some body => ofStmts m c body

/-- The parts of an iteration. A binding that only declares the loop variable has a type that is not
looked at. -/
def ofForeach (m : Member) (c : Setting) : ForeachStmt → List TypedPart
  | ⟨binding, _, collection, _, _, body⟩ =>
    ofExpr m c collection ++
      ((match binding with
        | .declaration _ ty _ => [⟨c, .binding, ty⟩]
        | _ => ofPattern m c binding) ++ ofStmts m c body)

/-- The parts of a region with a resource. -/
def ofUsing (m : Member) (c : Setting) : UsingStmt → List TypedPart
  | ⟨.expr e, _, _, body⟩ => ofExpr m c e ++ (⟨c, .binding, e.ty⟩ :: ofStmts m c body)
  | ⟨.declare decl, _, _, body⟩ =>
    ofLocal m c decl ++ (⟨c, .binding, decl.ty⟩ :: ofStmts m c body)

/-- The parts of a local function, its signature first. -/
def ofLocalFunction (m : Member) (c : Setting) : FnDecl → List TypedPart
  | ⟨id, name, kind, modifiers, typeParams, params, ret, attrs, explicitImpl, overrides, body,
      span⟩ =>
    let inner := c.localFunction m ⟨id, name, kind, modifiers, typeParams, params, ret, attrs,
      explicitImpl, overrides, body, span⟩
    ⟨inner, .result, ret.ty⟩ :: (ofParams inner true params ++ ofBody m inner body)

/-- The parts of the statements of a function, if it has any. -/
def ofBody (m : Member) (c : Setting) : Option (List Stmt) → List TypedPart
  | none => []
  | some body => ofStmts m c body

end

/-- The value of an expression is one of its parts. -/
theorem value_mem_ofExpr (m : Member) (c : Setting) (e : Expr) :
    (⟨c, .value, e.ty⟩ : TypedPart) ∈ ofExpr m c e := by
  obtain ⟨id, kind, ty, span⟩ := e
  rw [ofExpr]
  exact List.mem_cons_self ..

end TypedPart

namespace Member

/-- The setting of a member's parameters and statements. -/
def setting (m : Member) : Setting := ⟨m.innerScope, m.decl.suspends⟩

/-- The parameters of a member, and the parts of its body. -/
def typedParts (m : Member) : List TypedPart :=
  TypedPart.ofParams m.setting true m.decl.params ++ TypedPart.ofBody m m.setting m.decl.body

end Member

end StackEscape
