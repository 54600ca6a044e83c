import StackEscape.Tree.Basic

/-!
# Names of the tree's variants

The words under which the variants without content stand in the JSON form of a tree. Reader and
writer share these lists.

## Main definitions

* `StackEscape.RefKind.names`, `TypeKind.names`, `MemberKind.names`, `BinOp.names` — the words.
* `StackEscape.nameIn` — the word of a variant.
-/

set_option autoImplicit false

namespace StackEscape

/-- The word of a variant, by the list of words. -/
def nameIn {α : Type} [DecidableEq α] (names : List (String × α)) (a : α) : String :=
  ((names.find? fun e => decide (e.2 = a)).map Prod.fst).getD ""

/-- The kinds of reference. -/
def RefKind.names : List (String × RefKind) :=
  [("None", .none), ("Ref", .ref), ("In", .inRef), ("Out", .out), ("RefReadonly", .refReadonly)]

/-- The kinds of type. -/
def TypeKind.names : List (String × TypeKind) :=
  [("Class", .classType), ("Struct", .struct), ("RefStruct", .refStruct),
    ("Interface", .interface)]

/-- The kinds of member. -/
def MemberKind.names : List (String × MemberKind) :=
  [("Method", .method), ("Constructor", .ctor), ("Getter", .getter), ("Setter", .setter),
    ("InitSetter", .initSetter)]

/-- The binary operators. -/
def BinOp.names : List (String × BinOp) :=
  [("Add", .add), ("Sub", .sub), ("Mul", .mul), ("Eq", .eq), ("Ne", .ne), ("Lt", .lt),
    ("Gt", .gt), ("And", .and), ("Or", .or)]

/-- The constraints that name no type. -/
def ConstraintKind.names : List (String × ConstraintKind) :=
  [("Class", .referenceType), ("Struct", .valueType), ("Unmanaged", .unmanaged),
    ("NotNull", .notNull), ("New", .constructible), ("Default", .default),
    ("AllowsRefStruct", .allowsRefStruct)]

/-- The types without parts. -/
def TypeRef.names : List (String × TypeRef) :=
  [("Void", .void), ("Object", .object), ("Dynamic", .dynamic)]

/-- The literals without a value of their own. -/
def Literal.names : List (String × Literal) :=
  [("Null", .null), ("Default", .default)]

end StackEscape
