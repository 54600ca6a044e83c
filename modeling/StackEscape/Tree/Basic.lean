import StackEscape.Tree.TypeRef

/-!
# The bound tree

Programs as a binder hands them over: type declarations with their members, and bodies made of
statements, expressions and patterns. Names, overloads and static types are already resolved.

## Main definitions

* `StackEscape.TypeDecl`, `FieldDecl`, `TypeParam`, `FnDecl`, `Param` — declarations.
* `StackEscape.Stmt`, `Expr`, `Pattern` — bodies. They refer to each other, because a lambda holds
  statements and a local function is a statement.
* `StackEscape.Program` — all type declarations; a partial type appears once per part.

## Implementation notes

A node of a body is a structure with its identifier and span around an inductive type of its
possible forms, so that functions on bodies are structurally recursive.
-/

set_option autoImplicit false

namespace StackEscape

/-- Identifies a node; the results of the analysis are filed under it. -/
abbrev NodeId := UInt32

/-! ## Modifiers and markers -/

/-- How a parameter, local variable or return passes its storage. -/
inductive RefKind where
  /-- By value. -/
  | none
  /-- By reference. -/
  | ref
  /-- By read-only reference, chosen by the callee. -/
  | inRef
  /-- By reference, to be assigned by the callee. -/
  | out
  /-- By read-only reference. -/
  | refReadonly
  deriving DecidableEq, Inhabited, Repr

namespace RefKind

/-- Is storage passed, and not just a value? -/
def isByRef (k : RefKind) : Bool := decide (k ≠ .none)

/-- Does the reference forbid writing? -/
def isReadonly : RefKind → Bool
  | inRef | refReadonly => true
  | _ => false

end RefKind

/-- The kinds of attribute. -/
inductive AttributeKind where
  /-- Widens the default escape scope of a receiver or an `out` parameter. -/
  | unscopedRef
  /-- Any other attribute; it has no effect here. -/
  | other (name : String)
  deriving DecidableEq, Inhabited, Repr

/-- An attribute. -/
structure Attribute where
  /-- What the attribute is. -/
  kind : AttributeKind
  /-- Where it is written. -/
  span : Span
  deriving Inhabited, Repr

/-- The first `UnscopedRef` among some attributes. -/
def Attribute.unscoped? (attrs : List Attribute) : Option Attribute :=
  attrs.find? fun a => decide (a.kind = .unscopedRef)

/-- A parameter of a member, local function, lambda or primary constructor. -/
structure Param where
  /-- The parameter's name. -/
  name : String
  /-- Its type. -/
  ty : TypeRef
  /-- How the argument is passed. -/
  refKind : RefKind
  /-- Is it declared `scoped`? -/
  isScoped : Bool
  /-- Its attributes. -/
  attrs : List Attribute
  /-- Where it is declared. -/
  span : Span
  deriving Inhabited, Repr

/-- Does the parameter carry `UnscopedRef`? -/
def Param.isUnscoped (p : Param) : Bool := (Attribute.unscoped? p.attrs).isSome

/-! ## Type parameters -/

/-- What a constraint demands. -/
inductive ConstraintKind where
  /-- A reference type. -/
  | referenceType
  /-- A value type. -/
  | valueType
  /-- A value type without references. -/
  | unmanaged
  /-- A non-nullable type. -/
  | notNull
  /-- A parameterless constructor. -/
  | constructible
  /-- No constraint, said explicitly. -/
  | default
  /-- An interface, a base class, or another type parameter. -/
  | bound (ty : TypeRef)
  /-- The marker that admits stack-only types. -/
  | allowsRefStruct
  deriving DecidableEq, Inhabited, Repr

/-- A constraint of a type parameter. -/
structure Constraint where
  /-- What is demanded. -/
  kind : ConstraintKind
  /-- Where it is written. -/
  span : Span
  deriving Inhabited, Repr

/-- A type parameter and its constraint clause. -/
structure TypeParam where
  /-- The parameter's name. -/
  name : String
  /-- The constraints in source order. -/
  constraints : List Constraint
  /-- Where it is declared. -/
  span : Span
  deriving Inhabited, Repr

namespace TypeParam

/-- Is there a constraint of this kind? -/
def has (p : TypeParam) (kind : ConstraintKind) : Bool :=
  p.constraints.any fun c => decide (c.kind = kind)

/-- Does the clause admit stack-only types? -/
def hasAllowsMarker (p : TypeParam) : Bool := p.has .allowsRefStruct

/-- The types that the clause names as bounds, in order. -/
def bounds (p : TypeParam) : List TypeRef :=
  p.constraints.filterMap fun c => match c.kind with
    | .bound ty => some ty
    | _ => none

end TypeParam

/-! ## Members -/

/-- The kinds of member. -/
inductive MemberKind where
  /-- An ordinary method. -/
  | method
  /-- A constructor. -/
  | ctor
  /-- The reading half of a property. -/
  | getter
  /-- The writing half of a property. -/
  | setter
  /-- The writing half of a property that may only be used while the object is built. -/
  | initSetter
  deriving DecidableEq, Inhabited, Repr

/-- Is the member half of a property? -/
def MemberKind.isAccessor : MemberKind → Bool
  | getter | setter | initSetter => true
  | _ => false

/-- The modifiers of a member. -/
structure Modifiers where
  /-- Has no receiver. -/
  isStatic : Bool
  /-- May be overridden. -/
  isVirtual : Bool
  /-- Must be overridden. -/
  isAbstract : Bool
  /-- May not be overridden any more. -/
  isSealed : Bool
  /-- Overrides a base member. -/
  isOverride : Bool
  /-- Does not write through its receiver. -/
  isReadonly : Bool
  /-- May be suspended. -/
  isAsync : Bool
  /-- Produces its results one by one. -/
  isIterator : Bool
  /-- Is one of several parts. -/
  isPartial : Bool
  deriving DecidableEq, Inhabited, Repr

/-- What a member returns, and how. -/
structure ReturnType where
  /-- The type. -/
  ty : TypeRef
  /-- By value or by some kind of reference. -/
  refKind : RefKind
  deriving DecidableEq, Inhabited, Repr

namespace ReturnType

/-- Nothing is returned. -/
def nothing : ReturnType := ⟨.void, .none⟩

/-- A value is returned. -/
def byValue (ty : TypeRef) : ReturnType := ⟨ty, .none⟩

/-- A reference is returned. -/
def byRef (ty : TypeRef) : ReturnType := ⟨ty, .ref⟩

/-- Is some kind of reference returned? -/
def isByRef (r : ReturnType) : Bool := r.refKind.isByRef

end ReturnType

/-! ## Parts of expressions and statements that hold no bodies -/

/-- A constant. -/
inductive Literal where
  /-- An integer. -/
  | int (value : Int64)
  /-- A truth value. -/
  | bool (value : Bool)
  /-- A string. -/
  | str (value : String)
  /-- The null reference. -/
  | null
  /-- The default value of its type. -/
  | default
  deriving DecidableEq, Inhabited, Repr

/-- Binary operators. -/
inductive BinOp where
  /-- Sum. -/
  | add
  /-- Difference. -/
  | sub
  /-- Product. -/
  | mul
  /-- Equality test. -/
  | eq
  /-- Inequality test. -/
  | ne
  /-- Less than. -/
  | lt
  /-- Greater than. -/
  | gt
  /-- Conjunction. -/
  | and
  /-- Disjunction. -/
  | or
  deriving DecidableEq, Inhabited, Repr

/-- The member that an entry of a property pattern looks at. -/
inductive MemberAccess where
  /-- A field. -/
  | field (owner : TypeRef) (name : String)
  /-- A property, by its getter. -/
  | property (getter : MemberRef)
  deriving DecidableEq, Inhabited, Repr

/-- The members through which a `foreach` iterates. -/
structure Enumerator where
  /-- The type of the enumerator. -/
  ty : TypeRef
  /-- The type of its elements. -/
  elementTy : TypeRef
  /-- Makes the enumerator from the collection. -/
  getEnumerator : MemberRef
  /-- Steps to the next element. -/
  moveNext : MemberRef
  /-- Reads the current element. -/
  current : MemberRef
  /-- Disposes of the enumerator, if it has to be. -/
  dispose : Option MemberRef
  deriving DecidableEq, Inhabited, Repr

/-! ## Bodies -/

mutual

/-- A method, accessor, constructor or local function. -/
structure FnDecl where
  /-- The node's identifier. -/
  id : NodeId
  /-- The name; accessors carry a `get_` or `set_` in front. -/
  name : String
  /-- What kind of member it is. -/
  kind : MemberKind
  /-- Its modifiers. -/
  modifiers : Modifiers
  /-- Its own type parameters. -/
  typeParams : List TypeParam
  /-- Its parameters. -/
  params : List Param
  /-- What it returns. -/
  ret : ReturnType
  /-- Its attributes. -/
  attrs : List Attribute
  /-- The interface member it implements explicitly. -/
  explicitImpl : Option MemberRef
  /-- The base member it overrides. -/
  overrides : Option MemberRef
  /-- Its statements; `none` for members without a body. -/
  body : Option (List Stmt)
  /-- Where it is declared. -/
  span : Span

/-- A statement. -/
structure Stmt where
  /-- The node's identifier. -/
  id : NodeId
  /-- Which statement it is. -/
  kind : StmtKind
  /-- Where it is. -/
  span : Span

/-- The forms of statement. -/
inductive StmtKind where
  /-- An expression evaluated for its effect. -/
  | expr (e : Expr)
  /-- A local variable. -/
  | declare (decl : LocalDecl)
  /-- An assignment; `byRef` re-points a reference. -/
  | assign (target value : Expr) (byRef : Bool)
  /-- A return, by reference where the function returns so. -/
  | ret (value : Option Expr)
  /-- A nested block. -/
  | block (body : List Stmt)
  /-- A conditional statement. -/
  | ifElse (cond : Expr) (thenBranch : List Stmt) (elseBranch : Option (List Stmt))
  /-- A loop. -/
  | whileLoop (cond : Expr) (body : List Stmt)
  /-- An iteration over a collection. -/
  | foreach (loop : ForeachStmt)
  /-- A region that disposes of a resource at its end. -/
  | using (region : UsingStmt)
  /-- A local function. -/
  | localFunction (decl : FnDecl)
  /-- The next element of an iterator. -/
  | yieldReturn (e : Expr)

/-- The declaration of a local variable. -/
structure LocalDecl where
  /-- The variable's name. -/
  name : String
  /-- Its type. -/
  ty : TypeRef
  /-- By value, or a reference to other storage. -/
  refKind : RefKind
  /-- Is it declared `scoped`? -/
  isScoped : Bool
  /-- Its initial value. -/
  init : Option Expr
  /-- Where it is declared. -/
  span : Span

/-- An iteration over a collection. -/
structure ForeachStmt where
  /-- The variable, or the pattern that takes the element apart. -/
  binding : Pattern
  /-- Is the variable a reference to the element? -/
  byRef : Bool
  /-- What is iterated over. -/
  collection : Expr
  /-- The members used. -/
  enumerator : Enumerator
  /-- Does each step wait? -/
  isAwait : Bool
  /-- What is done with each element. -/
  body : List Stmt

/-- A region that disposes of a resource at its end. -/
structure UsingStmt where
  /-- The resource. -/
  resource : UsingResource
  /-- The member that disposes of it. -/
  dispose : Option MemberRef
  /-- Does disposal wait? -/
  isAwait : Bool
  /-- The region. -/
  body : List Stmt

/-- The resource of a `using`. -/
inductive UsingResource where
  /-- The value of an expression. -/
  | expr (e : Expr)
  /-- A declared variable. -/
  | declare (decl : LocalDecl)

/-- An expression with its static type. -/
structure Expr where
  /-- The node's identifier. -/
  id : NodeId
  /-- Which expression it is. -/
  kind : ExprKind
  /-- The static type. -/
  ty : TypeRef
  /-- Where it is. -/
  span : Span

/-- The forms of expression. -/
inductive ExprKind where
  /-- A constant. -/
  | literal (value : Literal)
  /-- A local variable, parameter or primary constructor parameter. -/
  | var (name : String)
  /-- The receiver of the member. -/
  | thisRef
  /-- A field; static fields have no receiver. -/
  | field (receiver : Option Expr) (owner : TypeRef) (name : String)
  /-- A property or indexer, read through its getter. -/
  | property (receiver : Option Expr) (getter : MemberRef) (args : List Arg)
  /-- A call. -/
  | call (receiver : Option Expr) (method : MemberRef) (typeArgs : List TypeRef) (args : List Arg)
  /-- A new object of the expression's type. -/
  | create (ctor : Option MemberRef) (args : List Arg)
  /-- A buffer on the stack. -/
  | stackAlloc (elem : TypeRef) (len : Expr)
  /-- A choice between two values, or between two references. -/
  | conditional (cond thenExpr elseExpr : Expr) (byRef : Bool)
  /-- A conversion to the expression's type. -/
  | convert (operand : Expr) (explicit : Bool)
  /-- A binary operation. -/
  | binary (op : BinOp) (left right : Expr)
  /-- A pattern test. -/
  | test (operand : Expr) (pattern : Pattern)
  /-- A lambda. -/
  | lambda (fn : Lambda)
  /-- A new array. -/
  | arrayNew (elem : TypeRef) (elems : List Expr)
  /-- An object of an anonymous type. -/
  | anonymous (members : List NamedExpr)
  /-- A suspension until a task is done. -/
  | await (operand : Expr)
  /-- A member invoked on a late-bound receiver. -/
  | dynamicInvoke (receiver : Expr) (name : String) (args : List Arg)
  /-- A variable declared in argument position. -/
  | outVar (name : String)

/-- An argument of a call. -/
structure Arg where
  /-- How it is passed. -/
  mode : RefKind
  /-- What is passed. -/
  expr : Expr

/-- A member of an anonymous object. -/
structure NamedExpr where
  /-- The member's name. -/
  name : String
  /-- Its value. -/
  value : Expr

/-- A lambda, or a lambda that is converted to an expression tree. -/
structure Lambda where
  /-- Its parameters. -/
  params : List Param
  /-- The type it returns. -/
  retTy : TypeRef
  /-- Its statements. -/
  body : List Stmt
  /-- Is it turned into data, and not into code? -/
  isExpressionTree : Bool
  /-- Does it refrain from capturing? -/
  isStatic : Bool
  /-- May it be suspended? -/
  isAsync : Bool

/-- The forms of pattern. -/
inductive Pattern where
  /-- Matches everything. -/
  | discard
  /-- Tests a type and binds a variable. -/
  | declaration (name : String) (ty : TypeRef) (span : Span)
  /-- Tests a type. -/
  | typeTest (ty : TypeRef)
  /-- Compares with a constant. -/
  | constant (e : Expr)
  /-- Matches the values of some fields and properties. -/
  | property (ty : Option TypeRef) (subpatterns : List SubPattern)
  /-- Matches what a `Deconstruct` method takes out. -/
  | positional (deconstruct : MemberRef) (subpatterns : List Pattern)
      (componentTys : List TypeRef)
  /-- Matches what the inner pattern does not. -/
  | negated (inner : Pattern)

/-- One entry of a property pattern. -/
structure SubPattern where
  /-- The member looked at. -/
  member : MemberAccess
  /-- Its static type. -/
  ty : TypeRef
  /-- What its value has to match. -/
  pattern : Pattern
  /-- Where the entry is. -/
  span : Span

end

instance : Inhabited Pattern := ⟨.discard⟩

instance : Inhabited Expr := ⟨⟨0, .thisRef, .void, .zero⟩⟩

instance : Inhabited Stmt := ⟨⟨0, .ret none, .zero⟩⟩

namespace FnDecl

/-- The span of the `UnscopedRef` attribute. -/
def unscopedSpan (f : FnDecl) : Option Span := (Attribute.unscoped? f.attrs).map Attribute.span

/-- Does the member carry `UnscopedRef`? -/
def isUnscoped (f : FnDecl) : Bool := f.unscopedSpan.isSome

/-- The member that this one takes its type-parameter constraints from: the overridden one, or else
the one implemented explicitly. -/
def base (f : FnDecl) : Option MemberRef := f.overrides.or f.explicitImpl

end FnDecl

/-! ## Types and programs -/

/-- The kinds of type declaration. -/
inductive TypeKind where
  /-- A class. -/
  | classType
  /-- A struct. -/
  | struct
  /-- A stack-only struct. -/
  | refStruct
  /-- An interface. -/
  | interface
  deriving DecidableEq, Inhabited, Repr

/-- Is the kind one of the two kinds of struct? -/
def TypeKind.isStructLike : TypeKind → Bool
  | struct | refStruct => true
  | _ => false

/-- A field, or the storage behind an auto-property. -/
structure FieldDecl where
  /-- The field's name. -/
  name : String
  /-- Its type. -/
  ty : TypeRef
  /-- Is it shared by all instances? -/
  isStatic : Bool
  /-- May it be written only while the object is built? -/
  isReadonly : Bool
  /-- Is it declared through an auto-property? -/
  isAutoProperty : Bool
  /-- Does it hold a reference? -/
  isRef : Bool
  /-- Where it is declared. -/
  span : Span
  deriving Inhabited, Repr

/-- A type declaration, or one part of a partial type. -/
structure TypeDecl where
  /-- The node's identifier. -/
  id : NodeId
  /-- The type's name. -/
  name : String
  /-- What kind of type it is. -/
  kind : TypeKind
  /-- Are all its instance members read-only? -/
  isReadonly : Bool
  /-- Is it one of several parts? -/
  isPartial : Bool
  /-- Its type parameters. -/
  typeParams : List TypeParam
  /-- The interfaces it implements; for an interface, its base interfaces. -/
  interfaces : List TypeRef
  /-- The parameters of its primary constructor. -/
  primaryParams : List Param
  /-- Its fields. -/
  fields : List FieldDecl
  /-- Its members. -/
  members : List FnDecl
  /-- Where it is declared. -/
  span : Span

/-- A whole bound program. -/
structure Program where
  /-- Every type part in program order. -/
  types : List TypeDecl

end StackEscape
