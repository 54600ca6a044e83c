import Mathlib.Data.List.Dedup
import StackEscape.Body.Resolve

/-!
# The sites of a body

Every expression, pattern and statement of a body together with the point where it stands: the local
functions that can be called there, and how the innermost enclosing function returns. A statement
about "every return at every depth" is a statement about these sites.

## Main definitions

* `StackEscape.Point` — what surrounds a node of a body.
* `StackEscape.Node`, `Site` — a node, and a node at its point.
* `StackEscape.Site.ofStmts` — the sites of some statements, at every depth.
* `StackEscape.Member.sites`, `localFunctions` — those of a member's body.
* `StackEscape.Program.visitedIds`, `setterTargets`, `exprIds` — the identifiers of all expressions.
* `StackEscape.Program.DistinctKeys` — no two declarations share a cache key.
* `StackEscape.Slots.program` — a small program that the results are tried on.

## Implementation notes

The functions that collect sites have the recursion of the tree and not that of the walk: they also
list what a walk passes over, such as the parts of a positional pattern that have no component type.
-/

set_option autoImplicit false

namespace StackEscape

/-! ## Points and sites -/

/-- The local functions that some statements declare, in order. -/
def directFunctions (stmts : List Stmt) : List FnDecl :=
  stmts.filterMap fun s => match s.kind with
    | .localFunction decl => some decl
    | _ => none

/-- What surrounds a node of a body. -/
structure Point where
  /-- The local functions of the enclosing blocks, innermost block first. -/
  functions : List (List FnDecl)
  /-- Does the innermost enclosing function return a reference? -/
  returnsByRef : Bool
  /-- The type that the innermost enclosing function returns. -/
  retTy : TypeRef

namespace Point

/-- The start of a member's body. -/
def ofMember (m : Member) (body : List Stmt) : Point :=
  ⟨[directFunctions body], m.decl.ret.isByRef, m.decl.ret.ty⟩

/-- The inside of a block. -/
def block (a : Point) (stmts : List Stmt) : Point :=
  { a with functions := directFunctions stmts :: a.functions }

/-- The inside of a lambda. -/
def lambda (a : Point) (retTy : TypeRef) (body : List Stmt) : Point :=
  ⟨directFunctions body :: a.functions, false, retTy⟩

/-- The inside of a local function. -/
def localFunction (a : Point) (decl : FnDecl) : Point :=
  ⟨directFunctions (decl.body.getD []) :: a.functions, decl.ret.isByRef, decl.ret.ty⟩

/-- The local function that a name means: the last one of that name in the innermost block that has
one. -/
def localFunction? (a : Point) (name : String) : Option FnDecl :=
  a.functions.findSome? fun decls => decls.reverse.find? fun d => decide (d.name = name)

end Point

/-- A node of a body. -/
inductive Node where
  /-- An expression. -/
  | expr (e : Expr)
  /-- A pattern, with the type of what it is matched with. -/
  | pattern (p : Pattern) (input : TypeRef)
  /-- A statement. -/
  | stmt (s : Stmt)

/-- A node at its point. -/
structure Site where
  /-- Where it stands. -/
  point : Point
  /-- What stands there. -/
  node : Node

namespace Site

mutual

/-- The sites of an expression, itself first. -/
def ofExpr (a : Point) : Expr → List Site
  | ⟨id, kind, ty, span⟩ => ⟨a, .expr ⟨id, kind, ty, span⟩⟩ :: ofKind a kind

/-- The sites of the parts of an expression. -/
def ofKind (a : Point) : ExprKind → List Site
  | .literal _ | .var _ | .thisRef | .outVar _ => []
  | .field receiver _ _ => ofOptional a receiver
  | .property receiver _ args => ofOptional a receiver ++ ofArgs a args
  | .call receiver _ _ args => ofOptional a receiver ++ ofArgs a args
  | .create _ args => ofArgs a args
  | .stackAlloc _ len => ofExpr a len
  | .conditional cond thenExpr elseExpr _ =>
    ofExpr a cond ++ (ofExpr a thenExpr ++ ofExpr a elseExpr)
  | .convert operand _ => ofExpr a operand
  | .binary _ left right => ofExpr a left ++ ofExpr a right
  | .test operand pattern => ofExpr a operand ++ ofPattern a operand.ty pattern
  | .lambda fn => ofLambda a fn
  | .arrayNew _ elems => ofExprs a elems
  | .anonymous members => ofMembers a members
  | .await operand => ofExpr a operand
  | .dynamicInvoke receiver _ args => ofExpr a receiver ++ ofArgs a args

/-- The sites of a receiver or an initial value. -/
def ofOptional (a : Point) : Option Expr → List Site
  | none => []
  | some e => ofExpr a e

/-- The sites of arguments. -/
def ofArgs (a : Point) : List Arg → List Site
  | [] => []
  | ⟨_, e⟩ :: rest => ofExpr a e ++ ofArgs a rest

/-- The sites of array elements. -/
def ofExprs (a : Point) : List Expr → List Site
  | [] => []
  | e :: rest => ofExpr a e ++ ofExprs a rest

/-- The sites of the members of an anonymous object. -/
def ofMembers (a : Point) : List NamedExpr → List Site
  | [] => []
  | ⟨_, e⟩ :: rest => ofExpr a e ++ ofMembers a rest

/-- The sites of a lambda. -/
def ofLambda (a : Point) : Lambda → List Site
  | ⟨_, retTy, body, _, _, _⟩ => ofStmts (a.lambda retTy body) body

/-- The sites of a pattern that is matched with a value of some type. -/
def ofPattern (a : Point) (input : TypeRef) : Pattern → List Site
  | .discard => [⟨a, .pattern .discard input⟩]
  | .declaration name ty span => [⟨a, .pattern (.declaration name ty span) input⟩]
  | .typeTest ty => [⟨a, .pattern (.typeTest ty) input⟩]
  | .constant e => ⟨a, .pattern (.constant e) input⟩ :: ofExpr a e
  | .property ty subpatterns =>
    ⟨a, .pattern (.property ty subpatterns) input⟩ :: ofSubPatterns a subpatterns
  | .positional deconstruct subpatterns componentTys =>
    ⟨a, .pattern (.positional deconstruct subpatterns componentTys) input⟩ ::
      ofComponents a componentTys subpatterns
  | .negated inner => ⟨a, .pattern (.negated inner) input⟩ :: ofPattern a input inner

/-- The sites of the entries of a property pattern. -/
def ofSubPatterns (a : Point) : List SubPattern → List Site
  | [] => []
  | ⟨_, ty, pattern, _⟩ :: rest => ofPattern a ty pattern ++ ofSubPatterns a rest

/-- The sites of the parts of a positional pattern; a part too many is matched with nothing. -/
def ofComponents (a : Point) (tys : List TypeRef) : List Pattern → List Site
  | [] => []
  | pattern :: rest => ofPattern a (tys.headD .void) pattern ++ ofComponents a tys.tail rest

/-- The sites of a local variable's declaration. -/
def ofLocal (a : Point) : LocalDecl → List Site
  | ⟨_, _, _, _, init, _⟩ => ofOptional a init

/-- The sites of some statements, at every depth. -/
def ofStmts (a : Point) : List Stmt → List Site
  | [] => []
  | s :: rest => ofStmt a s ++ ofStmts a rest

/-- The sites of a statement, itself first. The target of a by-value assignment to a property is not
one of them, but its receiver and its arguments are. -/
def ofStmt (a : Point) : Stmt → List Site
  | ⟨id, .expr e, span⟩ => ⟨a, .stmt ⟨id, .expr e, span⟩⟩ :: ofExpr a e
  | ⟨id, .yieldReturn e, span⟩ => ⟨a, .stmt ⟨id, .yieldReturn e, span⟩⟩ :: ofExpr a e
  | ⟨id, .declare decl, span⟩ => ⟨a, .stmt ⟨id, .declare decl, span⟩⟩ :: ofLocal a decl
  | ⟨id, .assign ⟨tid, .property receiver getter args, ty, tspan⟩ value false, span⟩ =>
    ⟨a, .stmt ⟨id, .assign ⟨tid, .property receiver getter args, ty, tspan⟩ value false, span⟩⟩ ::
      (ofOptional a receiver ++ (ofArgs a args ++ ofExpr a value))
  | ⟨id, .assign target value byRef, span⟩ =>
    ⟨a, .stmt ⟨id, .assign target value byRef, span⟩⟩ ::
      (ofExpr a target ++ ofExpr a value)
  | ⟨id, .ret value, span⟩ => ⟨a, .stmt ⟨id, .ret value, span⟩⟩ :: ofOptional a value
  | ⟨id, .block body, span⟩ => ⟨a, .stmt ⟨id, .block body, span⟩⟩ :: ofStmts (a.block body) body
  | ⟨id, .ifElse cond thenBranch elseBranch, span⟩ =>
    ⟨a, .stmt ⟨id, .ifElse cond thenBranch elseBranch, span⟩⟩ ::
      (ofExpr a cond ++ (ofStmts (a.block thenBranch) thenBranch ++ ofElse a elseBranch))
  | ⟨id, .whileLoop cond body, span⟩ =>
    ⟨a, .stmt ⟨id, .whileLoop cond body, span⟩⟩ ::
      (ofExpr a cond ++ ofStmts (a.block body) body)
  | ⟨id, .foreach loop, span⟩ => ⟨a, .stmt ⟨id, .foreach loop, span⟩⟩ :: ofForeach a loop
  | ⟨id, .using region, span⟩ => ⟨a, .stmt ⟨id, .using region, span⟩⟩ :: ofUsing a region
  | ⟨id, .localFunction decl, span⟩ =>
    ⟨a, .stmt ⟨id, .localFunction decl, span⟩⟩ :: ofLocalFunction a decl

/-- The sites of the second branch of a conditional statement. -/
def ofElse (a : Point) : Option (List Stmt) → List Site
  | none => []
  | some body => ofStmts (a.block body) body

/-- The sites of an iteration. A binding that only declares the loop variable is no pattern. -/
def ofForeach (a : Point) : ForeachStmt → List Site
  | ⟨binding, _, collection, enumerator, _, body⟩ =>
    ofExpr a collection ++
      ((match binding with
        | .declaration .. => []
        | _ => ofPattern a enumerator.elementTy binding) ++ ofStmts (a.block body) body)

/-- The sites of a region with a resource. -/
def ofUsing (a : Point) : UsingStmt → List Site
  | ⟨.expr e, _, _, body⟩ => ofExpr a e ++ ofStmts (a.block body) body
  | ⟨.declare decl, _, _, body⟩ => ofLocal a decl ++ ofStmts (a.block body) body

/-- The sites of a local function. -/
def ofLocalFunction (a : Point) : FnDecl → List Site
  | ⟨id, name, kind, modifiers, typeParams, params, ret, attrs, explicitImpl, overrides, body,
      span⟩ =>
    ofBody (a.localFunction ⟨id, name, kind, modifiers, typeParams, params, ret, attrs,
      explicitImpl, overrides, body, span⟩) body

/-- The sites of the statements of a function, if it has any. -/
def ofBody (a : Point) : Option (List Stmt) → List Site
  | none => []
  | some body => ofStmts a body

end

/-! ## What sites are about -/

/-- The identifier of the expression that is walked at a site. -/
def visitedId? (x : Site) : Option NodeId :=
  match x.node with
  | .expr e => some e.id
  | _ => none

/-- The identifier of the target of a by-value assignment to a property. -/
def setterTarget? (x : Site) : Option NodeId :=
  match x.node with
  | .stmt ⟨_, .assign ⟨id, .property _ _ _, _, _⟩ _ false, _⟩ => some id
  | _ => none

/-- The local function that is declared at a site. -/
def localFunction? (x : Site) : Option FnDecl :=
  match x.node with
  | .stmt ⟨_, .localFunction decl, _⟩ => some decl
  | _ => none

/-- A positional pattern has at most as many parts as component types. -/
def IsRegular (x : Site) : Prop :=
  match x.node with
  | .pattern (.positional _ subpatterns componentTys) _ =>
    subpatterns.length ≤ componentTys.length
  | _ => True

instance (x : Site) : Decidable x.IsRegular :=
  match x with
  | ⟨_, .pattern (.positional _ subpatterns componentTys) _⟩ =>
    inferInstanceAs (Decidable (subpatterns.length ≤ componentTys.length))
  | ⟨_, .pattern .discard _⟩ | ⟨_, .pattern (.declaration ..) _⟩ | ⟨_, .pattern (.typeTest _) _⟩
  | ⟨_, .pattern (.constant _) _⟩ | ⟨_, .pattern (.property ..) _⟩ | ⟨_, .pattern (.negated _) _⟩
  | ⟨_, .expr _⟩ | ⟨_, .stmt _⟩ => isTrue trivial

/-- The identifiers of the expressions that are walked at some sites. -/
def visitedIds (xs : List Site) : List NodeId := xs.filterMap visitedId?

@[simp] theorem visitedIds_nil : visitedIds [] = [] := rfl

@[simp] theorem visitedIds_append (xs ys : List Site) :
    visitedIds (xs ++ ys) = visitedIds xs ++ visitedIds ys := List.filterMap_append

/-- The local functions that some statements declare are declared at their sites. -/
theorem exists_of_mem_directFunctions {a : Point} {stmts : List Stmt} {d : FnDecl}
    (h : d ∈ directFunctions stmts) :
    ∃ x ∈ ofStmts a stmts, x.localFunction? = some d := by
  induction stmts with
  | nil => simp [directFunctions] at h
  | cons s rest ih =>
    simp only [ofStmts, List.mem_append]
    rcases s with ⟨id, kind, span⟩
    by_cases hd : ∃ f, kind = .localFunction f ∧ f = d
    · obtain ⟨f, rfl, rfl⟩ := hd
      exact ⟨_, Or.inl (by rw [ofStmt]; exact List.mem_cons_self ..), rfl⟩
    · have hrest : d ∈ directFunctions rest := by
        simp only [directFunctions, List.mem_filterMap, List.mem_cons, exists_eq_or_imp] at h ⊢
        rcases h with h | h
        · cases kind with
          | localFunction f => exact absurd ⟨f, rfl, by simpa using h⟩ hd
          | _ => simp at h
        · exact h
      obtain ⟨x, hx, hxd⟩ := ih hrest
      exact ⟨x, Or.inr hx, hxd⟩

end Site

/-! ## Members and programs -/

namespace Member

/-- The key of a local function of a member. -/
def localKey (m : Member) (decl : FnDecl) : String := m.key ++ "." ++ decl.name

/-- The sites of a member's body. -/
def sites (m : Member) : List Site :=
  match m.decl.body with
  | none => []
  | some body => Site.ofStmts (.ofMember m body) body

/-- The local functions of a member, at every depth. -/
def localFunctions (m : Member) : List FnDecl := m.sites.filterMap Site.localFunction?

/-- The keys of the local functions of a member. -/
def localKeys (m : Member) : List String := m.localFunctions.map m.localKey

end Member

namespace Program

/-- The identifiers of all expressions that are walked. -/
def visitedIds (p : Program) : List NodeId := p.members.flatMap fun m => Site.visitedIds m.sites

/-- The identifiers of all targets of by-value assignments to properties. -/
def setterTargets (p : Program) : List NodeId :=
  p.members.flatMap fun m => m.sites.filterMap Site.setterTarget?

/-- The identifiers of all expressions in bodies. -/
def exprIds (p : Program) : List NodeId := p.visitedIds ++ p.setterTargets

/-- The keys of all local functions. -/
def localKeys (p : Program) : List String := p.members.flatMap Member.localKeys

/-- The keys under which results about types, members and local functions are filed; the parts of a
partial type have one key. -/
def cacheKeys (p : Program) : List String :=
  p.typeNames.dedup ++ (p.members.map Member.key ++ p.localKeys)

/-- No two expressions share an identifier. -/
def DistinctIds (p : Program) : Prop := p.exprIds.Nodup

/-- No two types, members or local functions share a key. -/
def DistinctKeys (p : Program) : Prop := p.cacheKeys.Nodup

/-- No local function has type parameters of its own. -/
def PlainLocalFunctions (p : Program) : Prop :=
  ∀ m ∈ p.members, ∀ d ∈ m.localFunctions, d.typeParams = []

/-- Every positional pattern has at most as many parts as component types. -/
def RegularPatterns (p : Program) : Prop := ∀ m ∈ p.members, ∀ x ∈ m.sites, x.IsRegular

instance (p : Program) : Decidable p.DistinctIds := inferInstanceAs (Decidable p.exprIds.Nodup)

instance (p : Program) : Decidable p.DistinctKeys := inferInstanceAs (Decidable p.cacheKeys.Nodup)

instance (p : Program) : Decidable p.PlainLocalFunctions :=
  inferInstanceAs (Decidable (∀ m ∈ p.members, ∀ d ∈ m.localFunctions, d.typeParams = []))

instance (p : Program) : Decidable p.RegularPatterns :=
  inferInstanceAs (Decidable (∀ m ∈ p.members, ∀ x ∈ m.sites, x.IsRegular))

end Program

/-! ## An example -/

namespace Slots

/-- The type of slots, which hold a reference. -/
def slotTy : TypeRef := .named "Slot" []

/-- A slot by the name of a variable. -/
def slotVar (id : NodeId) (name : String) : Expr := ⟨id, .var name, slotTy, .zero⟩

/-- A parameter for a slot. -/
def slotParam (name : String) (refKind : RefKind) (isScoped : Bool) : Param :=
  ⟨name, slotTy, refKind, isScoped, [], .zero⟩

/-- A static function. -/
def fn (id : NodeId) (name : String) (params : List Param) (ret : ReturnType) (body : List Stmt) :
    FnDecl :=
  ⟨id, name, .method, { (default : Modifiers) with isStatic := true }, [], params, ret, [], none,
    none, some body, .zero⟩

/-- The body of `content`. -/
def contentBody : List Stmt :=
  [⟨4, .ret (some ⟨5, .field (some (slotVar 6 "slot")) slotTy "value", .int, .zero⟩), .zero⟩]

/-- Returns the reference in a slot. -/
def content : FnDecl := fn 3 "Content" [slotParam "slot" .ref false] (.byRef .int) contentBody

/-- Returns what it is given. -/
def same : FnDecl :=
  fn 8 "Same" [slotParam "s" .none false] (.byValue slotTy)
    [⟨9, .ret (some (slotVar 10 "s")), .zero⟩]

/-- Returns a slot that went through a local function. -/
def keep : FnDecl :=
  fn 7 "Keep" [slotParam "slot" .none false, slotParam "other" .none true] (.byValue slotTy)
    [⟨11, .localFunction same, .zero⟩,
      ⟨12, .assign (slotVar 13 "slot") ⟨14, .call none ⟨.named "Slots" [], "Same"⟩ []
        [⟨.none, slotVar 15 "slot"⟩], slotTy, .zero⟩ false, .zero⟩,
      ⟨16, .ret (some (slotVar 17 "slot")), .zero⟩]

/-- The class of both functions. -/
def decl : TypeDecl :=
  ⟨2, "Slots", .classType, false, false, [], [], [], [], [content, keep], .zero⟩

/-- A program with a type that holds a reference, and functions that return one. -/
def program : Program :=
  ⟨[⟨1, "Slot", .refStruct, false, false, [], [], [],
    [⟨"value", .int, false, false, false, true, .zero⟩], [], .zero⟩, decl]⟩

end Slots

end StackEscape
