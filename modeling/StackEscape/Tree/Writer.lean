import StackEscape.Json.Value
import StackEscape.Tree.Names

/-!
# Writing bound trees

The JSON form of a bound tree, as the reader takes it. Optional parts that are missing are written
as null.

## Main definitions

* `StackEscape.Program.toJson` — a program as a JSON value.
-/

set_option autoImplicit false

namespace StackEscape

open Json

/-! ## References and declarations without bodies -/

/-- A variant with a content. -/
def tagJson (tag : String) (content : Value) : Value := .record [(tag, content)]

/-- A span. -/
def Span.toJson (s : Span) : Value :=
  .record [("start", .nat s.start.toNat), ("end", .nat s.stop.toNat)]

mutual

/-- A type. -/
def TypeRef.toJson : TypeRef → Value
  | .void => .string "Void"
  | .object => .string "Object"
  | .dynamic => .string "Dynamic"
  | .primitive name => tagJson "Primitive" (.string name)
  | .named name args =>
    tagJson "Named" (.record [("name", .string name), ("args", .arr (TypeRef.toJsonAll args))])
  | .param name => tagJson "Param" (.string name)
  | .array elem => tagJson "Array" (TypeRef.toJson elem)

/-- A list of types. -/
def TypeRef.toJsonAll : List TypeRef → List Value
  | [] => []
  | t :: ts => TypeRef.toJson t :: TypeRef.toJsonAll ts

end

/-- A member reference. -/
def MemberRef.toJson (m : MemberRef) : Value :=
  .record [("owner", m.owner.toJson), ("name", .string m.name)]

/-- The kind of a reference. -/
def RefKind.toJson (k : RefKind) : Value := .string (nameIn RefKind.names k)

/-- What an attribute is. -/
def AttributeKind.toJson : AttributeKind → Value
  | .unscopedRef => .string "UnscopedRef"
  | .other name => tagJson "Other" (.string name)

/-- An attribute. -/
def Attribute.toJson (a : Attribute) : Value :=
  .record [("kind", a.kind.toJson), ("span", a.span.toJson)]

/-- A parameter. -/
def Param.toJson (p : Param) : Value :=
  .record [("name", .string p.name), ("ty", p.ty.toJson), ("ref_kind", p.refKind.toJson),
    ("is_scoped", .bool p.isScoped), ("attrs", .ofList Attribute.toJson p.attrs),
    ("span", p.span.toJson)]

/-- What a constraint demands. -/
def ConstraintKind.toJson : ConstraintKind → Value
  | .bound ty => tagJson "Type" ty.toJson
  | kind => .string (nameIn ConstraintKind.names kind)

/-- A constraint. -/
def Constraint.toJson (c : Constraint) : Value :=
  .record [("kind", c.kind.toJson), ("span", c.span.toJson)]

/-- A type parameter. -/
def TypeParam.toJson (p : TypeParam) : Value :=
  .record [("name", .string p.name), ("constraints", .ofList Constraint.toJson p.constraints),
    ("span", p.span.toJson)]

/-- The modifiers of a member. -/
def Modifiers.toJson (m : Modifiers) : Value :=
  .record [("is_static", .bool m.isStatic), ("is_virtual", .bool m.isVirtual),
    ("is_abstract", .bool m.isAbstract), ("is_sealed", .bool m.isSealed),
    ("is_override", .bool m.isOverride), ("is_readonly", .bool m.isReadonly),
    ("is_async", .bool m.isAsync), ("is_iterator", .bool m.isIterator),
    ("is_partial", .bool m.isPartial)]

/-- What a member returns. -/
def ReturnType.toJson (r : ReturnType) : Value :=
  .record [("ty", r.ty.toJson), ("ref_kind", r.refKind.toJson)]

/-- A constant. -/
def Literal.toJson : Literal → Value
  | .int n => tagJson "Int" (.int n.toInt)
  | .bool b => tagJson "Bool" (.bool b)
  | .str s => tagJson "Str" (.string s)
  | .null => .string "Null"
  | .default => .string "Default"

/-- The member that an entry of a property pattern looks at. -/
def MemberAccess.toJson : MemberAccess → Value
  | .field owner name =>
    tagJson "Field" (.record [("owner", owner.toJson), ("name", .string name)])
  | .property getter => tagJson "Property" getter.toJson

/-- The members through which a `foreach` iterates. -/
def Enumerator.toJson (e : Enumerator) : Value :=
  .record [("ty", e.ty.toJson), ("element_ty", e.elementTy.toJson),
    ("get_enumerator", e.getEnumerator.toJson), ("move_next", e.moveNext.toJson),
    ("current", e.current.toJson), ("dispose", .ofOption MemberRef.toJson e.dispose)]

/-- A field. -/
def FieldDecl.toJson (f : FieldDecl) : Value :=
  .record [("name", .string f.name), ("ty", f.ty.toJson), ("is_static", .bool f.isStatic),
    ("is_readonly", .bool f.isReadonly), ("is_auto_property", .bool f.isAutoProperty),
    ("is_ref", .bool f.isRef), ("span", f.span.toJson)]

/-- A node's identifier. -/
def NodeId.toJson (id : NodeId) : Value := .nat id.toNat

/-! ## Bodies -/

mutual

/-- A member or local function. -/
def FnDecl.toJson : FnDecl → Value
  | ⟨id, name, kind, modifiers, typeParams, params, ret, attrs, explicitImpl, overrides, body,
      span⟩ =>
    .record [("id", NodeId.toJson id), ("name", .string name),
      ("kind", .string (nameIn MemberKind.names kind)), ("modifiers", modifiers.toJson),
      ("type_params", .ofList TypeParam.toJson typeParams),
      ("params", .ofList Param.toJson params), ("ret", ret.toJson),
      ("attrs", .ofList Attribute.toJson attrs),
      ("explicit_impl", .ofOption MemberRef.toJson explicitImpl),
      ("overrides", .ofOption MemberRef.toJson overrides),
      ("body", Stmt.toJsonOption body), ("span", span.toJson)]

/-- A statement. -/
def Stmt.toJson : Stmt → Value
  | ⟨id, kind, span⟩ =>
    .record [("id", NodeId.toJson id), ("kind", kind.toJson), ("span", span.toJson)]

/-- A list of statements. -/
def Stmt.toJsonAll : List Stmt → List Value
  | [] => []
  | s :: ss => s.toJson :: Stmt.toJsonAll ss

/-- A list of statements, or null. -/
def Stmt.toJsonOption : Option (List Stmt) → Value
  | none => .null
  | some ss => .arr (Stmt.toJsonAll ss)

/-- The form of a statement. -/
def StmtKind.toJson : StmtKind → Value
  | .expr e => tagJson "Expr" e.toJson
  | .declare decl => tagJson "Local" decl.toJson
  | .assign target value byRef =>
    tagJson "Assign" (.record [("target", target.toJson), ("value", value.toJson),
      ("by_ref", .bool byRef)])
  | .ret value => tagJson "Return" (Expr.toJsonOption value)
  | .block body => tagJson "Block" (.arr (Stmt.toJsonAll body))
  | .ifElse cond thenBranch elseBranch =>
    tagJson "If" (.record [("cond", cond.toJson), ("then_branch", .arr (Stmt.toJsonAll thenBranch)),
      ("else_branch", Stmt.toJsonOption elseBranch)])
  | .whileLoop cond body =>
    tagJson "While" (.record [("cond", cond.toJson), ("body", .arr (Stmt.toJsonAll body))])
  | .foreach loop => tagJson "Foreach" loop.toJson
  | .using region => tagJson "Using" region.toJson
  | .localFunction decl => tagJson "LocalFunction" decl.toJson
  | .yieldReturn e => tagJson "YieldReturn" e.toJson

/-- A local variable. -/
def LocalDecl.toJson : LocalDecl → Value
  | ⟨name, ty, refKind, isScoped, init, span⟩ =>
    .record [("name", .string name), ("ty", ty.toJson), ("ref_kind", refKind.toJson),
      ("is_scoped", .bool isScoped), ("init", Expr.toJsonOption init), ("span", span.toJson)]

/-- An iteration. -/
def ForeachStmt.toJson : ForeachStmt → Value
  | ⟨binding, byRef, collection, enumerator, isAwait, body⟩ =>
    .record [("binding", binding.toJson), ("by_ref", .bool byRef),
      ("collection", collection.toJson), ("enumerator", enumerator.toJson),
      ("is_await", .bool isAwait), ("body", .arr (Stmt.toJsonAll body))]

/-- A region with a resource. -/
def UsingStmt.toJson : UsingStmt → Value
  | ⟨resource, dispose, isAwait, body⟩ =>
    .record [("resource", resource.toJson), ("dispose", .ofOption MemberRef.toJson dispose),
      ("is_await", .bool isAwait), ("body", .arr (Stmt.toJsonAll body))]

/-- A resource. -/
def UsingResource.toJson : UsingResource → Value
  | .expr e => tagJson "Expr" e.toJson
  | .declare decl => tagJson "Local" decl.toJson

/-- An expression. -/
def Expr.toJson : Expr → Value
  | ⟨id, kind, ty, span⟩ =>
    .record [("id", NodeId.toJson id), ("kind", kind.toJson), ("ty", ty.toJson),
      ("span", span.toJson)]

/-- A list of expressions. -/
def Expr.toJsonAll : List Expr → List Value
  | [] => []
  | e :: es => e.toJson :: Expr.toJsonAll es

/-- An expression, or null. -/
def Expr.toJsonOption : Option Expr → Value
  | none => .null
  | some e => e.toJson

/-- The form of an expression. -/
def ExprKind.toJson : ExprKind → Value
  | .literal value => tagJson "Literal" value.toJson
  | .var name => tagJson "Local" (.string name)
  | .thisRef => .string "This"
  | .field receiver owner name =>
    tagJson "Field" (.record [("receiver", Expr.toJsonOption receiver), ("owner", owner.toJson),
      ("name", .string name)])
  | .property receiver getter args =>
    tagJson "Property" (.record [("receiver", Expr.toJsonOption receiver),
      ("getter", getter.toJson), ("args", .arr (Arg.toJsonAll args))])
  | .call receiver method typeArgs args =>
    tagJson "Call" (.record [("receiver", Expr.toJsonOption receiver), ("method", method.toJson),
      ("type_args", .arr (TypeRef.toJsonAll typeArgs)), ("args", .arr (Arg.toJsonAll args))])
  | .create ctor args =>
    tagJson "New" (.record [("ctor", .ofOption MemberRef.toJson ctor),
      ("args", .arr (Arg.toJsonAll args))])
  | .stackAlloc elem len =>
    tagJson "StackAlloc" (.record [("elem", elem.toJson), ("len", len.toJson)])
  | .conditional cond thenExpr elseExpr byRef =>
    tagJson "Conditional" (.record [("cond", cond.toJson), ("then_expr", thenExpr.toJson),
      ("else_expr", elseExpr.toJson), ("by_ref", .bool byRef)])
  | .convert operand explicit =>
    tagJson "Convert" (.record [("operand", operand.toJson), ("explicit", .bool explicit)])
  | .binary op left right =>
    tagJson "Binary" (.record [("op", .string (nameIn BinOp.names op)), ("left", left.toJson),
      ("right", right.toJson)])
  | .test operand pattern =>
    tagJson "Is" (.record [("operand", operand.toJson), ("pattern", pattern.toJson)])
  | .lambda fn => tagJson "Lambda" fn.toJson
  | .arrayNew elem elems =>
    tagJson "ArrayNew" (.record [("elem", elem.toJson), ("elems", .arr (Expr.toJsonAll elems))])
  | .anonymous members =>
    tagJson "AnonymousObject" (.record [("members", .arr (NamedExpr.toJsonAll members))])
  | .await operand => tagJson "Await" operand.toJson
  | .dynamicInvoke receiver name args =>
    tagJson "DynamicInvoke" (.record [("receiver", receiver.toJson), ("name", .string name),
      ("args", .arr (Arg.toJsonAll args))])
  | .outVar name => tagJson "OutVar" (.string name)

/-- An argument. -/
def Arg.toJson : Arg → Value
  | ⟨mode, expr⟩ => .record [("mode", mode.toJson), ("expr", expr.toJson)]

/-- A list of arguments. -/
def Arg.toJsonAll : List Arg → List Value
  | [] => []
  | a :: as => a.toJson :: Arg.toJsonAll as

/-- A member of an anonymous object. -/
def NamedExpr.toJson : NamedExpr → Value
  | ⟨name, value⟩ => .arr [.string name, value.toJson]

/-- The members of an anonymous object. -/
def NamedExpr.toJsonAll : List NamedExpr → List Value
  | [] => []
  | m :: ms => m.toJson :: NamedExpr.toJsonAll ms

/-- A lambda. -/
def Lambda.toJson : Lambda → Value
  | ⟨params, retTy, body, isExpressionTree, isStatic, isAsync⟩ =>
    .record [("params", .ofList Param.toJson params), ("ret_ty", retTy.toJson),
      ("body", .arr (Stmt.toJsonAll body)), ("is_expression_tree", .bool isExpressionTree),
      ("is_static", .bool isStatic), ("is_async", .bool isAsync)]

/-- A pattern. -/
def Pattern.toJson : Pattern → Value
  | .discard => .string "Discard"
  | .declaration name ty span =>
    tagJson "Declaration" (.record [("name", .string name), ("ty", ty.toJson),
      ("span", span.toJson)])
  | .typeTest ty => tagJson "Type" ty.toJson
  | .constant e => tagJson "Constant" e.toJson
  | .property ty subpatterns =>
    tagJson "Property" (.record [("ty", .ofOption TypeRef.toJson ty),
      ("subpatterns", .arr (SubPattern.toJsonAll subpatterns))])
  | .positional deconstruct subpatterns componentTys =>
    tagJson "Positional" (.record [("deconstruct", deconstruct.toJson),
      ("subpatterns", .arr (Pattern.toJsonAll subpatterns)),
      ("component_tys", .arr (TypeRef.toJsonAll componentTys))])
  | .negated inner => tagJson "Not" inner.toJson

/-- A list of patterns. -/
def Pattern.toJsonAll : List Pattern → List Value
  | [] => []
  | p :: ps => p.toJson :: Pattern.toJsonAll ps

/-- An entry of a property pattern. -/
def SubPattern.toJson : SubPattern → Value
  | ⟨member, ty, pattern, span⟩ =>
    .record [("member", member.toJson), ("ty", ty.toJson), ("pattern", pattern.toJson),
      ("span", span.toJson)]

/-- The entries of a property pattern. -/
def SubPattern.toJsonAll : List SubPattern → List Value
  | [] => []
  | p :: ps => p.toJson :: SubPattern.toJsonAll ps

end

/-! ## Types and programs -/

/-- A type declaration. -/
def TypeDecl.toJson (t : TypeDecl) : Value :=
  .record [("id", NodeId.toJson t.id), ("name", .string t.name),
    ("kind", .string (nameIn TypeKind.names t.kind)), ("is_readonly", .bool t.isReadonly),
    ("is_partial", .bool t.isPartial), ("type_params", .ofList TypeParam.toJson t.typeParams),
    ("interfaces", .arr (TypeRef.toJsonAll t.interfaces)),
    ("primary_params", .ofList Param.toJson t.primaryParams),
    ("fields", .ofList FieldDecl.toJson t.fields), ("members", .ofList FnDecl.toJson t.members),
    ("span", t.span.toJson)]

/-- A program. -/
def Program.toJson (p : Program) : Value := .record [("types", .ofList TypeDecl.toJson p.types)]

end StackEscape
