import StackEscape.Json.Record
import StackEscape.Json.Reader
import StackEscape.Tree.Names

/-!
# Reading bound trees

The JSON form of a bound tree: records are objects, variants without content are strings, and the
other variants are objects with their name as the only key. Every reader spends a nesting budget.

## Main definitions

* `StackEscape.Program.ofJson?` — the program that a JSON value stands for.
* `StackEscape.Program.load?` — the program that a text stands for.
* `StackEscape.nestingLimit` — how many arrays and objects may be open at once.

## Implementation notes

The readers of bodies recurse on the budget. A variant with fields takes two levels, one for its
name and one for its fields, and the second level is taken by the function whose name ends in
`Fields`.
-/

set_option autoImplicit false

namespace StackEscape

open Json

/-- At most this many arrays and objects may be open at once. -/
def nestingLimit : Nat := 127

/-! ## References and declarations without bodies -/

/-- A span. -/
def Span.read : Nat → Value → Option Span
  | 0, _ => none
  | _ + 1, v => do
    let fs ← v.fields? ["start", "end"]
    return ⟨← fs.req "start" Value.word64?, ← fs.req "end" Value.word64?⟩

mutual

/-- A type. -/
def TypeRef.read : Nat → Value → Option TypeRef
  | 0, v => readEnum TypeRef.names 0 v
  | d + 1, v =>
    match v.tagged? with
    | some ("Primitive", c) => c.string?.map .primitive
    | some ("Param", c) => c.string?.map .param
    | some ("Array", c) => (TypeRef.read d c).map .array
    | some ("Named", c) => TypeRef.readFields d c
    | _ => readEnum TypeRef.names (d + 1) v

/-- The fields of a named type. -/
def TypeRef.readFields : Nat → Value → Option TypeRef
  | 0, _ => none
  | d + 1, v => do
    let fs ← v.fields? ["name", "args"]
    return .named (← fs.req "name" Value.string?) (← fs.req "args" (TypeRef.readAll d))

/-- A list of types. -/
def TypeRef.readAll : Nat → Value → Option (List TypeRef)
  | 0, _ => none
  | d + 1, v => v.items?.bind fun items => items.mapM (TypeRef.read d)

end

/-- A member reference. -/
def MemberRef.read : Nat → Value → Option MemberRef
  | 0, _ => none
  | d + 1, v => do
    let fs ← v.fields? ["owner", "name"]
    return ⟨← fs.req "owner" (TypeRef.read d), ← fs.req "name" Value.string?⟩

/-- What an attribute is. -/
def AttributeKind.read : Nat → Value → Option AttributeKind
  | 0, v => readEnum [("UnscopedRef", .unscopedRef)] 0 v
  | d + 1, v =>
    match v.tagged? with
    | some ("Other", c) => c.string?.map .other
    | _ => readEnum [("UnscopedRef", .unscopedRef)] (d + 1) v

/-- An attribute. -/
def Attribute.read : Nat → Value → Option Attribute
  | 0, _ => none
  | d + 1, v => do
    let fs ← v.fields? ["kind", "span"]
    return ⟨← fs.req "kind" (AttributeKind.read d), ← fs.req "span" (Span.read d)⟩

/-- A parameter. -/
def Param.read : Nat → Value → Option Param
  | 0, _ => none
  | d + 1, v => do
    let fs ← v.fields? ["name", "ty", "ref_kind", "is_scoped", "attrs", "span"]
    return ⟨← fs.req "name" Value.string?, ← fs.req "ty" (TypeRef.read d),
      ← fs.req "ref_kind" (readEnum RefKind.names d), ← fs.req "is_scoped" Value.bool?,
      ← fs.req "attrs" (readList Attribute.read d), ← fs.req "span" (Span.read d)⟩

/-- What a constraint demands. -/
def ConstraintKind.read : Nat → Value → Option ConstraintKind
  | 0, v => readEnum ConstraintKind.names 0 v
  | d + 1, v =>
    match v.tagged? with
    | some ("Type", c) => (TypeRef.read d c).map .bound
    | _ => readEnum ConstraintKind.names (d + 1) v

/-- A constraint. -/
def Constraint.read : Nat → Value → Option Constraint
  | 0, _ => none
  | d + 1, v => do
    let fs ← v.fields? ["kind", "span"]
    return ⟨← fs.req "kind" (ConstraintKind.read d), ← fs.req "span" (Span.read d)⟩

/-- A type parameter. -/
def TypeParam.read : Nat → Value → Option TypeParam
  | 0, _ => none
  | d + 1, v => do
    let fs ← v.fields? ["name", "constraints", "span"]
    return ⟨← fs.req "name" Value.string?, ← fs.req "constraints" (readList Constraint.read d),
      ← fs.req "span" (Span.read d)⟩

/-- The modifiers of a member. -/
def Modifiers.read : Nat → Value → Option Modifiers
  | 0, _ => none
  | _ + 1, v => do
    let fs ← v.fields? ["is_static", "is_virtual", "is_abstract", "is_sealed", "is_override",
      "is_readonly", "is_async", "is_iterator", "is_partial"]
    return ⟨← fs.req "is_static" Value.bool?, ← fs.req "is_virtual" Value.bool?,
      ← fs.req "is_abstract" Value.bool?, ← fs.req "is_sealed" Value.bool?,
      ← fs.req "is_override" Value.bool?, ← fs.req "is_readonly" Value.bool?,
      ← fs.req "is_async" Value.bool?, ← fs.req "is_iterator" Value.bool?,
      ← fs.req "is_partial" Value.bool?⟩

/-- What a member returns. -/
def ReturnType.read : Nat → Value → Option ReturnType
  | 0, _ => none
  | d + 1, v => do
    let fs ← v.fields? ["ty", "ref_kind"]
    return ⟨← fs.req "ty" (TypeRef.read d), ← fs.req "ref_kind" (readEnum RefKind.names d)⟩

/-- A constant. -/
def Literal.read : Nat → Value → Option Literal
  | 0, v => readEnum Literal.names 0 v
  | d + 1, v =>
    match v.tagged? with
    | some ("Int", c) => c.int64?.map .int
    | some ("Bool", c) => c.bool?.map .bool
    | some ("Str", c) => c.string?.map .str
    | _ => readEnum Literal.names (d + 1) v

/-- The fields of a field reference in a pattern. -/
def MemberAccess.readFields : Nat → Value → Option MemberAccess
  | 0, _ => none
  | d + 1, v => do
    let fs ← v.fields? ["owner", "name"]
    return .field (← fs.req "owner" (TypeRef.read d)) (← fs.req "name" Value.string?)

/-- The member that an entry of a property pattern looks at. -/
def MemberAccess.read : Nat → Value → Option MemberAccess
  | 0, _ => none
  | d + 1, v =>
    match v.tagged? with
    | some ("Field", c) => MemberAccess.readFields d c
    | some ("Property", c) => (MemberRef.read d c).map .property
    | _ => none

/-- The members through which a `foreach` iterates. -/
def Enumerator.read : Nat → Value → Option Enumerator
  | 0, _ => none
  | d + 1, v => do
    let fs ← v.fields? ["ty", "element_ty", "get_enumerator", "move_next", "current", "dispose"]
    return ⟨← fs.req "ty" (TypeRef.read d), ← fs.req "element_ty" (TypeRef.read d),
      ← fs.req "get_enumerator" (MemberRef.read d), ← fs.req "move_next" (MemberRef.read d),
      ← fs.req "current" (MemberRef.read d), ← fs.opt "dispose" (MemberRef.read d)⟩

/-- A field. -/
def FieldDecl.read : Nat → Value → Option FieldDecl
  | 0, _ => none
  | d + 1, v => do
    let fs ← v.fields?
      ["name", "ty", "is_static", "is_readonly", "is_auto_property", "is_ref", "span"]
    return ⟨← fs.req "name" Value.string?, ← fs.req "ty" (TypeRef.read d),
      ← fs.req "is_static" Value.bool?, ← fs.req "is_readonly" Value.bool?,
      ← fs.req "is_auto_property" Value.bool?, ← fs.req "is_ref" Value.bool?,
      ← fs.req "span" (Span.read d)⟩

/-! ## Bodies -/

mutual

/-- A member or local function. -/
def FnDecl.read : Nat → Value → Option FnDecl
  | 0, _ => none
  | d + 1, v => do
    let fs ← v.fields? ["id", "name", "kind", "modifiers", "type_params", "params", "ret", "attrs",
      "explicit_impl", "overrides", "body", "span"]
    return ⟨← fs.req "id" Value.word32?, ← fs.req "name" Value.string?,
      ← fs.req "kind" (readEnum MemberKind.names d), ← fs.req "modifiers" (Modifiers.read d),
      ← fs.req "type_params" (readList TypeParam.read d),
      ← fs.req "params" (readList Param.read d), ← fs.req "ret" (ReturnType.read d),
      ← fs.req "attrs" (readList Attribute.read d),
      ← fs.opt "explicit_impl" (MemberRef.read d), ← fs.opt "overrides" (MemberRef.read d),
      ← fs.opt "body" (Stmt.readAll d), ← fs.req "span" (Span.read d)⟩

/-- A statement. -/
def Stmt.read : Nat → Value → Option Stmt
  | 0, _ => none
  | d + 1, v => do
    let fs ← v.fields? ["id", "kind", "span"]
    return ⟨← fs.req "id" Value.word32?, ← fs.req "kind" (StmtKind.read d),
      ← fs.req "span" (Span.read d)⟩

/-- A list of statements. -/
def Stmt.readAll : Nat → Value → Option (List Stmt)
  | 0, _ => none
  | d + 1, v => v.items?.bind fun items => items.mapM (Stmt.read d)

/-- The form of a statement. -/
def StmtKind.read : Nat → Value → Option StmtKind
  | 0, _ => none
  | d + 1, v =>
    match v.tagged? with
    | some ("Expr", c) => (Expr.read d c).map .expr
    | some ("Local", c) => (LocalDecl.read d c).map .declare
    | some ("Return", .null) => some (.ret none)
    | some ("Return", c) => (Expr.read d c).map fun e => .ret (some e)
    | some ("Block", c) => (Stmt.readAll d c).map .block
    | some ("Foreach", c) => (ForeachStmt.read d c).map .foreach
    | some ("Using", c) => (UsingStmt.read d c).map .using
    | some ("LocalFunction", c) => (FnDecl.read d c).map .localFunction
    | some ("YieldReturn", c) => (Expr.read d c).map .yieldReturn
    | some (tag, c) => StmtKind.readFields d tag c
    | none => none

/-- The fields of a form of statement. -/
def StmtKind.readFields : Nat → String → Value → Option StmtKind
  | 0, _, _ => none
  | d + 1, "Assign", v => do
    let fs ← v.fields? ["target", "value", "by_ref"]
    return .assign (← fs.req "target" (Expr.read d)) (← fs.req "value" (Expr.read d))
      (← fs.req "by_ref" Value.bool?)
  | d + 1, "If", v => do
    let fs ← v.fields? ["cond", "then_branch", "else_branch"]
    return .ifElse (← fs.req "cond" (Expr.read d)) (← fs.req "then_branch" (Stmt.readAll d))
      (← fs.opt "else_branch" (Stmt.readAll d))
  | d + 1, "While", v => do
    let fs ← v.fields? ["cond", "body"]
    return .whileLoop (← fs.req "cond" (Expr.read d)) (← fs.req "body" (Stmt.readAll d))
  | _, _, _ => none

/-- A local variable. -/
def LocalDecl.read : Nat → Value → Option LocalDecl
  | 0, _ => none
  | d + 1, v => do
    let fs ← v.fields? ["name", "ty", "ref_kind", "is_scoped", "init", "span"]
    return ⟨← fs.req "name" Value.string?, ← fs.req "ty" (TypeRef.read d),
      ← fs.req "ref_kind" (readEnum RefKind.names d), ← fs.req "is_scoped" Value.bool?,
      ← fs.opt "init" (Expr.read d), ← fs.req "span" (Span.read d)⟩

/-- An iteration. -/
def ForeachStmt.read : Nat → Value → Option ForeachStmt
  | 0, _ => none
  | d + 1, v => do
    let fs ← v.fields? ["binding", "by_ref", "collection", "enumerator", "is_await", "body"]
    return ⟨← fs.req "binding" (Pattern.read d), ← fs.req "by_ref" Value.bool?,
      ← fs.req "collection" (Expr.read d), ← fs.req "enumerator" (Enumerator.read d),
      ← fs.req "is_await" Value.bool?, ← fs.req "body" (Stmt.readAll d)⟩

/-- A region with a resource. -/
def UsingStmt.read : Nat → Value → Option UsingStmt
  | 0, _ => none
  | d + 1, v => do
    let fs ← v.fields? ["resource", "dispose", "is_await", "body"]
    return ⟨← fs.req "resource" (UsingResource.read d), ← fs.opt "dispose" (MemberRef.read d),
      ← fs.req "is_await" Value.bool?, ← fs.req "body" (Stmt.readAll d)⟩

/-- A resource. -/
def UsingResource.read : Nat → Value → Option UsingResource
  | 0, _ => none
  | d + 1, v =>
    match v.tagged? with
    | some ("Expr", c) => (Expr.read d c).map .expr
    | some ("Local", c) => (LocalDecl.read d c).map .declare
    | _ => none

/-- An expression. -/
def Expr.read : Nat → Value → Option Expr
  | 0, _ => none
  | d + 1, v => do
    let fs ← v.fields? ["id", "kind", "ty", "span"]
    return ⟨← fs.req "id" Value.word32?, ← fs.req "kind" (ExprKind.read d),
      ← fs.req "ty" (TypeRef.read d), ← fs.req "span" (Span.read d)⟩

/-- A list of expressions. -/
def Expr.readAll : Nat → Value → Option (List Expr)
  | 0, _ => none
  | d + 1, v => v.items?.bind fun items => items.mapM (Expr.read d)

/-- The form of an expression. -/
def ExprKind.read : Nat → Value → Option ExprKind
  | 0, v => readEnum [("This", .thisRef)] 0 v
  | d + 1, v =>
    match v.tagged? with
    | some ("Literal", c) => (Literal.read d c).map .literal
    | some ("Local", c) => c.string?.map .var
    | some ("This", .null) => some .thisRef
    | some ("Lambda", c) => (Lambda.read d c).map .lambda
    | some ("Await", c) => (Expr.read d c).map .await
    | some ("OutVar", c) => c.string?.map .outVar
    | some (tag, c) => ExprKind.readFields d tag c
    | none => readEnum [("This", .thisRef)] (d + 1) v

/-- The fields of a form of expression. -/
def ExprKind.readFields : Nat → String → Value → Option ExprKind
  | 0, _, _ => none
  | d + 1, "Field", v => do
    let fs ← v.fields? ["receiver", "owner", "name"]
    return .field (← fs.opt "receiver" (Expr.read d)) (← fs.req "owner" (TypeRef.read d))
      (← fs.req "name" Value.string?)
  | d + 1, "Property", v => do
    let fs ← v.fields? ["receiver", "getter", "args"]
    return .property (← fs.opt "receiver" (Expr.read d)) (← fs.req "getter" (MemberRef.read d))
      (← fs.req "args" (Arg.readAll d))
  | d + 1, "Call", v => do
    let fs ← v.fields? ["receiver", "method", "type_args", "args"]
    return .call (← fs.opt "receiver" (Expr.read d)) (← fs.req "method" (MemberRef.read d))
      (← fs.req "type_args" (TypeRef.readAll d)) (← fs.req "args" (Arg.readAll d))
  | d + 1, "New", v => do
    let fs ← v.fields? ["ctor", "args"]
    return .create (← fs.opt "ctor" (MemberRef.read d)) (← fs.req "args" (Arg.readAll d))
  | d + 1, "StackAlloc", v => do
    let fs ← v.fields? ["elem", "len"]
    return .stackAlloc (← fs.req "elem" (TypeRef.read d)) (← fs.req "len" (Expr.read d))
  | d + 1, "Conditional", v => do
    let fs ← v.fields? ["cond", "then_expr", "else_expr", "by_ref"]
    return .conditional (← fs.req "cond" (Expr.read d)) (← fs.req "then_expr" (Expr.read d))
      (← fs.req "else_expr" (Expr.read d)) (← fs.req "by_ref" Value.bool?)
  | d + 1, "Convert", v => do
    let fs ← v.fields? ["operand", "explicit"]
    return .convert (← fs.req "operand" (Expr.read d)) (← fs.req "explicit" Value.bool?)
  | d + 1, "Binary", v => do
    let fs ← v.fields? ["op", "left", "right"]
    return .binary (← fs.req "op" (readEnum BinOp.names d)) (← fs.req "left" (Expr.read d))
      (← fs.req "right" (Expr.read d))
  | d + 1, "Is", v => do
    let fs ← v.fields? ["operand", "pattern"]
    return .test (← fs.req "operand" (Expr.read d)) (← fs.req "pattern" (Pattern.read d))
  | d + 1, "ArrayNew", v => do
    let fs ← v.fields? ["elem", "elems"]
    return .arrayNew (← fs.req "elem" (TypeRef.read d)) (← fs.req "elems" (Expr.readAll d))
  | d + 1, "AnonymousObject", v => do
    let fs ← v.fields? ["members"]
    return .anonymous (← fs.req "members" (NamedExpr.readAll d))
  | d + 1, "DynamicInvoke", v => do
    let fs ← v.fields? ["receiver", "name", "args"]
    return .dynamicInvoke (← fs.req "receiver" (Expr.read d)) (← fs.req "name" Value.string?)
      (← fs.req "args" (Arg.readAll d))
  | _, _, _ => none

/-- An argument. -/
def Arg.read : Nat → Value → Option Arg
  | 0, _ => none
  | d + 1, v => do
    let fs ← v.fields? ["mode", "expr"]
    return ⟨← fs.req "mode" (readEnum RefKind.names d), ← fs.req "expr" (Expr.read d)⟩

/-- A list of arguments. -/
def Arg.readAll : Nat → Value → Option (List Arg)
  | 0, _ => none
  | d + 1, v => v.items?.bind fun items => items.mapM (Arg.read d)

/-- A member of an anonymous object: an array of its name and its value. -/
def NamedExpr.read : Nat → Value → Option NamedExpr
  | 0, _ => none
  | d + 1, .arr [name, value] => do return ⟨← name.string?, ← Expr.read d value⟩
  | _, _ => none

/-- The members of an anonymous object. -/
def NamedExpr.readAll : Nat → Value → Option (List NamedExpr)
  | 0, _ => none
  | d + 1, v => v.items?.bind fun items => items.mapM (NamedExpr.read d)

/-- A lambda. -/
def Lambda.read : Nat → Value → Option Lambda
  | 0, _ => none
  | d + 1, v => do
    let fs ← v.fields?
      ["params", "ret_ty", "body", "is_expression_tree", "is_static", "is_async"]
    return ⟨← fs.req "params" (readList Param.read d), ← fs.req "ret_ty" (TypeRef.read d),
      ← fs.req "body" (Stmt.readAll d), ← fs.req "is_expression_tree" Value.bool?,
      ← fs.req "is_static" Value.bool?, ← fs.req "is_async" Value.bool?⟩

/-- A pattern. -/
def Pattern.read : Nat → Value → Option Pattern
  | 0, v => readEnum [("Discard", .discard)] 0 v
  | d + 1, v =>
    match v.tagged? with
    | some ("Discard", .null) => some .discard
    | some ("Type", c) => (TypeRef.read d c).map .typeTest
    | some ("Constant", c) => (Expr.read d c).map .constant
    | some ("Not", c) => (Pattern.read d c).map .negated
    | some (tag, c) => Pattern.readFields d tag c
    | none => readEnum [("Discard", .discard)] (d + 1) v

/-- The fields of a form of pattern. -/
def Pattern.readFields : Nat → String → Value → Option Pattern
  | 0, _, _ => none
  | d + 1, "Declaration", v => do
    let fs ← v.fields? ["name", "ty", "span"]
    return .declaration (← fs.req "name" Value.string?) (← fs.req "ty" (TypeRef.read d))
      (← fs.req "span" (Span.read d))
  | d + 1, "Property", v => do
    let fs ← v.fields? ["ty", "subpatterns"]
    return .property (← fs.opt "ty" (TypeRef.read d))
      (← fs.req "subpatterns" (SubPattern.readAll d))
  | d + 1, "Positional", v => do
    let fs ← v.fields? ["deconstruct", "subpatterns", "component_tys"]
    return .positional (← fs.req "deconstruct" (MemberRef.read d))
      (← fs.req "subpatterns" (Pattern.readAll d))
      (← fs.req "component_tys" (TypeRef.readAll d))
  | _, _, _ => none

/-- A list of patterns. -/
def Pattern.readAll : Nat → Value → Option (List Pattern)
  | 0, _ => none
  | d + 1, v => v.items?.bind fun items => items.mapM (Pattern.read d)

/-- An entry of a property pattern. -/
def SubPattern.read : Nat → Value → Option SubPattern
  | 0, _ => none
  | d + 1, v => do
    let fs ← v.fields? ["member", "ty", "pattern", "span"]
    return ⟨← fs.req "member" (MemberAccess.read d), ← fs.req "ty" (TypeRef.read d),
      ← fs.req "pattern" (Pattern.read d), ← fs.req "span" (Span.read d)⟩

/-- The entries of a property pattern. -/
def SubPattern.readAll : Nat → Value → Option (List SubPattern)
  | 0, _ => none
  | d + 1, v => v.items?.bind fun items => items.mapM (SubPattern.read d)

end

/-! ## Types and programs -/

/-- A type declaration. -/
def TypeDecl.read : Nat → Value → Option TypeDecl
  | 0, _ => none
  | d + 1, v => do
    let fs ← v.fields? ["id", "name", "kind", "is_readonly", "is_partial", "type_params",
      "interfaces", "primary_params", "fields", "members", "span"]
    return ⟨← fs.req "id" Value.word32?, ← fs.req "name" Value.string?,
      ← fs.req "kind" (readEnum TypeKind.names d), ← fs.req "is_readonly" Value.bool?,
      ← fs.req "is_partial" Value.bool?, ← fs.req "type_params" (readList TypeParam.read d),
      ← fs.req "interfaces" (TypeRef.readAll d),
      ← fs.req "primary_params" (readList Param.read d),
      ← fs.req "fields" (readList FieldDecl.read d), ← fs.req "members" (readList FnDecl.read d),
      ← fs.req "span" (Span.read d)⟩

namespace Program

/-- A program. -/
def read : Nat → Value → Option Program
  | 0, _ => none
  | d + 1, v => do
    let fs ← v.fields? ["types"]
    return ⟨← fs.req "types" (readList TypeDecl.read d)⟩

/-- The program that a JSON value stands for. -/
def ofJson? (v : Value) : Option Program := Program.read nestingLimit v

/-- The program that a text stands for. -/
def load? (text : String) : Option Program := (Value.read? text).bind ofJson?

end Program

end StackEscape
