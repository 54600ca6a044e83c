import StackEscape.Scope.Pair
import StackEscape.Table
import StackEscape.Tree.Basic

/-!
# Contexts

The state of names while a body is walked: a stack of scopes with the variables and local functions
declared in each, and a stack of the functions entered.

## Main definitions

* `StackEscape.ScopeKind` — what a scope belongs to.
* `StackEscape.LocalInfo` — a variable with the levels fixed at its declaration.
* `StackEscape.FunctionFrame` — what matters of the function whose body is walked.
* `StackEscape.Context` — the scopes and functions, innermost first.
* `StackEscape.Context.lookup`, `localFunction` — what a name means at this point.
-/

set_option autoImplicit false

namespace StackEscape

/-- What a scope belongs to. -/
inductive ScopeKind where
  /-- The body of a member. -/
  | method
  /-- A block. -/
  | block
  /-- The disposal at the end of a region. -/
  | disposal
  /-- A lambda, perhaps one that becomes an expression tree. -/
  | lambda (expressionTree : Bool)
  /-- A local function. -/
  | localFunction
  deriving DecidableEq, Inhabited, Repr

namespace ScopeKind

/-- Does a function begin with this scope? -/
def isFunction : ScopeKind → Bool
  | method | lambda _ | localFunction => true
  | block | disposal => false

/-- Does a function begin with this scope that stands inside of another one? -/
def isNested : ScopeKind → Bool
  | lambda _ | localFunction => true
  | _ => false

end ScopeKind

/-- How a variable came to be. -/
inductive BindingKind where
  /-- By a declaration in a body. -/
  | declared
  /-- As a parameter. -/
  | param
  deriving DecidableEq, Inhabited, Repr

/-- A variable and the levels fixed at its declaration. -/
structure LocalInfo where
  /-- Its name. -/
  name : String
  /-- Its type. -/
  ty : TypeRef
  /-- Its levels. -/
  pair : ScopePair
  /-- May its type be stack-only? -/
  stackOnly : Bool
  /-- Is it a reference to other storage? -/
  isRef : Bool
  /-- Is it declared `scoped`? -/
  isScoped : Bool
  /-- How it came to be. -/
  kind : BindingKind
  deriving Inhabited, Repr

/-- What matters of a function while its body is walked. -/
structure FunctionFrame where
  /-- Does it return a reference? -/
  returnsByRef : Bool
  /-- May what it returns be stack-only? -/
  returnsStackOnly : Bool
  /-- May it be suspended? -/
  isAsync : Bool
  /-- Does it produce its results one by one? -/
  isIterator : Bool
  /-- The pair of `this`; `none` in static code. -/
  thisPair : Option ScopePair
  deriving Inhabited, Repr

/-- Locals of such a function may be moved to the heap, so none of them may be stack-only. -/
def FunctionFrame.forbidsStackOnlyLocals (f : FunctionFrame) : Bool := f.isAsync || f.isIterator

/-- A scope with what is declared in it. -/
structure Scope where
  /-- What it belongs to. -/
  kind : ScopeKind
  /-- Its variables, in the order of declaration. -/
  locals : List LocalInfo := []
  /-- Its local functions by name. -/
  functions : Table String FnDecl := .empty

/-- The names visible at a point of a body. -/
structure Context where
  /-- The scopes, innermost first. -/
  scopes : List Scope
  /-- The functions entered, innermost first. -/
  frames : List FunctionFrame

/-- A variable that was found. -/
structure Lookup where
  /-- The variable. -/
  info : LocalInfo
  /-- The innermost nested function that lies between, if there is one. -/
  crossed : Option ScopeKind

namespace Context

/-- The context with one more scope. -/
def pushScope (c : Context) (kind : ScopeKind) : Context :=
  { c with scopes := ⟨kind, [], .empty⟩ :: c.scopes }

/-- The context inside of one more function. -/
def pushFunction (c : Context) (kind : ScopeKind) (frame : FunctionFrame) : Context :=
  { c with frames := frame :: c.frames }.pushScope kind

/-- The context at the start of a member's body. -/
def ofFrame (frame : FunctionFrame) : Context := (⟨[], []⟩ : Context).pushFunction .method frame

/-- The context without its innermost scope, and without the function that began with it. -/
def popScope (c : Context) : Context :=
  match c.scopes with
  | [] => c
  | s :: rest => ⟨rest, if s.kind.isFunction then c.frames.tail else c.frames⟩

/-- The function whose body is being walked. -/
def function (c : Context) : Option FunctionFrame := c.frames.head?

/-- The context with its innermost scope changed. -/
def modifyTop (c : Context) (f : Scope → Scope) : Context :=
  match c.scopes with
  | [] => c
  | s :: rest => { c with scopes := f s :: rest }

/-- Declare a variable in the innermost scope. -/
def declare (c : Context) (info : LocalInfo) : Context :=
  c.modifyTop fun s => { s with locals := s.locals ++ [info] }

/-- Declare a local function in the innermost scope. A later one of the same name replaces it. -/
def declareFunction (c : Context) (decl : FnDecl) : Context :=
  c.modifyTop fun s => { s with functions := s.functions.set decl.name decl }

/-- The local function of a name, innermost scope first. -/
def localFunction (c : Context) (name : String) : Option FnDecl :=
  c.scopes.findSome? fun s => s.functions.get? name

/-- The last variable of a name in a scope. -/
def lastLocal (s : Scope) (name : String) : Option LocalInfo :=
  s.locals.reverse.find? fun l => decide (l.name = name)

/-- The variable of a name in some scopes, given the nested function already crossed. -/
def lookupIn (name : String) : Option ScopeKind → List Scope → Option Lookup
  | _, [] => none
  | crossed, s :: rest =>
    match lastLocal s name with
    | some info => some ⟨info, crossed⟩
    | none => lookupIn name (crossed.or (if s.kind.isNested then some s.kind else none)) rest

/-- The variable of a name: the latest declaration in the innermost scope that has one. -/
def lookup (c : Context) (name : String) : Option Lookup := lookupIn name none c.scopes

/-- Is this point inside of a lambda or local function? -/
def inNestedFunction (c : Context) : Bool := decide (1 < c.frames.length)

/-- Is this point inside of a lambda that becomes an expression tree? -/
def inExpressionTree (c : Context) : Bool :=
  c.scopes.any fun s => decide (s.kind = .lambda true)

/-- The number of scopes. -/
def depth (c : Context) : Nat := c.scopes.length

end Context

end StackEscape
