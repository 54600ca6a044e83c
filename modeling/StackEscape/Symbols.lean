import StackEscape.Graph.Preorder
import StackEscape.Tree.Basic

/-!
# Symbols

Looking up types, members and fields by name in a program. A partial type is declared by several
parts, all of which are searched; a member of an interface is also searched in its base interfaces.

## Main definitions

* `StackEscape.Member`, `Field` — a declaration together with the type part that declares it.
* `StackEscape.Program.parts`, `typeDecl?` — the parts of a type, and its first part.
* `StackEscape.Program.member?` — the member that a reference names.
* `StackEscape.Program.interfaceMembers` — every member that an interface requires.
* `StackEscape.Program.implementing?` — the member of a type that implements a required one.

## Implementation notes

The graph of base interfaces may have circles; both searches go over it with `preorder`.
-/

set_option autoImplicit false

namespace StackEscape

/-- A member and the type part that declares it. -/
structure Member where
  /-- The declaring part. -/
  owner : TypeDecl
  /-- The declaration. -/
  decl : FnDecl

/-- The key under which results about the member are filed. Overloads share it. -/
def Member.key (m : Member) : String := m.owner.name ++ "." ++ m.decl.name

/-- A field and the type part that declares it. -/
structure Field where
  /-- The declaring part. -/
  owner : TypeDecl
  /-- The declaration. -/
  decl : FieldDecl

/-- The names of the declarations that the part names as interfaces, in order. -/
def TypeDecl.baseNames (t : TypeDecl) : List String := t.interfaces.filterMap TypeRef.declName

namespace Program

/-! ## Types -/

/-- The parts of a type in program order. -/
def parts (p : Program) (name : String) : List TypeDecl :=
  p.types.filter fun t => decide (t.name = name)

/-- The first part of a type. -/
def typeDecl? (p : Program) (name : String) : Option TypeDecl :=
  p.types.find? fun t => decide (t.name = name)

/-- The kind of the declaration that a type refers to, by its first part. -/
def typeKind? (p : Program) (ty : TypeRef) : Option TypeKind :=
  (ty.declName.bind p.typeDecl?).map TypeDecl.kind

/-- The names of all types in program order, once per part. -/
def typeNames (p : Program) : List String := p.types.map TypeDecl.name

/-- Every member in program order. -/
def members (p : Program) : List Member :=
  p.types.flatMap fun t => t.members.map fun m => ⟨t, m⟩

/-! ## Members and fields -/

/-- The first member of a name that some part of a type declares. -/
def declared? (p : Program) (owner name : String) : Option Member :=
  (p.parts owner).findSome? fun part =>
    (part.members.find? fun m => decide (m.name = name)).map fun m => ⟨part, m⟩

/-- Where a member is searched that the type itself does not declare: the bases of an interface, by
its first part. -/
def searchedBases (p : Program) (owner : String) : List String :=
  match p.typeDecl? owner with
  | some t => if t.kind = .interface then t.baseNames else []
  | none => []

/-- The types on which a member is searched, in order: the type itself, then what it leads to. -/
def searchOrder (p : Program) (owner : String) : List String :=
  preorder p.searchedBases p.typeNames [owner]

/-- The first member of a name on a type or, for an interface, on its bases. -/
def findMember (p : Program) (owner name : String) : Option Member :=
  (p.searchOrder owner).findSome? fun t => p.declared? t name

/-- The member that a reference names. -/
def member? (p : Program) (r : MemberRef) : Option Member :=
  r.owner.declName.bind fun owner => p.findMember owner r.name

/-- The field of a name on a type. -/
def field? (p : Program) (owner : TypeRef) (name : String) : Option Field :=
  owner.declName.bind fun owner => (p.parts owner).findSome? fun part =>
    (part.fields.find? fun f => decide (f.name = name)).map fun f => ⟨part, f⟩

/-! ## Interfaces -/

/-- A node of the walk over an interface and its bases. -/
inductive InterfaceNode where
  /-- An interface, by name. -/
  | named (name : String)
  /-- A type part, by its position in the program. -/
  | part (index : Nat)
  deriving DecidableEq

/-- Where the walk goes next: from a name to the interface parts of that name, from a part to its
bases. -/
def interfaceSucc (p : Program) : InterfaceNode → List InterfaceNode
  | .named name =>
    (p.types.zipIdx.filter fun (t, _) =>
      decide (t.name = name) && decide (t.kind = .interface)).map fun (_, i) => .part i
  | .part i => ((p.types[i]?.map TypeDecl.baseNames).getD []).map .named

/-- All nodes of the walk. -/
def interfaceNodes (p : Program) : List InterfaceNode :=
  p.typeNames.map .named ++ (List.range p.types.length).map .part

/-- The members that the part at a node declares. -/
def membersAt (p : Program) : InterfaceNode → List Member
  | .named _ => []
  | .part i => match p.types[i]? with
    | some t => t.members.map fun m => ⟨t, m⟩
    | none => []

/-- Every member that an interface requires, those of its base interfaces included: the members of a
part come before those of its bases. -/
def interfaceMembers (p : Program) (ty : TypeRef) : List Member :=
  match ty.declName with
  | some name => (preorder p.interfaceSucc p.interfaceNodes [.named name]).flatMap p.membersAt
  | none => []

/-- Does the member say that it implements the required one? -/
def implementsExplicitly (required : Member) (m : FnDecl) : Bool :=
  match m.explicitImpl with
  | some r => decide (r.name = required.decl.name) &&
      decide (r.owner.declName = some required.owner.name)
  | none => false

/-- Does the member implement the required one by its name, kind and number of parameters? -/
def implementsImplicitly (required : Member) (m : FnDecl) : Bool :=
  m.explicitImpl.isNone && !m.modifiers.isStatic && decide (m.name = required.decl.name) &&
    decide (m.kind = required.decl.kind) &&
    decide (m.params.length = required.decl.params.length)

/-- The member of a type that implements a required one; an explicit implementation wins. -/
def implementing? (p : Program) (ty : String) (required : Member) : Option Member :=
  let first (test : FnDecl → Bool) : Option Member :=
    (p.parts ty).findSome? fun part => (part.members.find? test).map fun m => ⟨part, m⟩
  (first (implementsExplicitly required)).or (first (implementsImplicitly required))

end Program

end StackEscape
