import StackEscape.Tree.Reader
import StackEscape.Tree.Writer
import StackEscape.Proofs.JsonRecords

/-!
# Reading back references and declarations

Types, member references and all declarations without bodies are read back from their JSON form, by the
readers that spend one level of their budget on every array and object.

## Main results

* `StackEscape.Json.ReadsBack.tagged`, `taggedRecord` — variants with a content, and with fields, are
  read back.
* `StackEscape.TypeRef.readsBack`, `MemberRef.readsBack` — references are read back.
* `StackEscape.Param.readsBack`, `TypeParam.readsBack`, `FieldDecl.readsBack` — declarations are read
  back.
-/

set_option autoImplicit false

namespace StackEscape

open Json Value

/-! ## Variants -/

@[simp] theorem tagged?_tagJson (tag : String) (content : Value) :
    (tagJson tag content).tagged? = some (tag, content) := rfl

@[simp] theorem tagged?_string (s : String) : (Value.string s).tagged? = none := rfl

/-- A variant with a content. -/
theorem Json.ReadsBack.tagged {α β : Type} {read : Nat → Value → Option α}
    {inner : Nat → Value → Option β} {tag : String} {content : Value} {a : α} {b : β}
    (hcontent : ReadsBack inner content b)
    (h : ∀ d, inner d content = some b → read (d + 1) (tagJson tag content) = some a) :
    ReadsBack read (tagJson tag content) a := by
  refine .record (by simp [hcontent.plain]) fun d hd => h d (hcontent.eq d ?_)
  exact hd _ (List.mem_singleton_self _)

/-- A variant with fields: one level for its name, and one for the fields. -/
theorem Json.ReadsBack.taggedRecord {α : Type} {read : Nat → Value → Option α} {tag : String}
    {fields : Fields} {a : α} (hplain : ∀ e ∈ fields, e.2.Plain)
    (h : ∀ d, (∀ e ∈ fields, e.2.depth ≤ d) →
      read (d + 1 + 1) (tagJson tag (.record fields)) = some a) :
    ReadsBack read (tagJson tag (.record fields)) a := by
  refine .record (by simpa using .record hplain) fun d hd => ?_
  obtain ⟨b, rfl, hb⟩ := depth_record_le_iff.1 (hd _ (List.mem_singleton_self _))
  exact h b hb

/-! ## References -/

theorem Span.readsBack (s : Span) : ReadsBack Span.read s.toJson s := by
  refine .record (by simp [nat]) fun d _ => ?_
  simp [Span.read]

mutual

theorem TypeRef.readsBack : (t : TypeRef) → ReadsBack TypeRef.read t.toJson t
  | .void | .object | .dynamic => ⟨.string _, fun d _ => by cases d <;> rfl⟩
  | .primitive name => by
    rw [TypeRef.toJson]
    exact .tagged (.string name) fun d h => by simp [TypeRef.read]
  | .named name args => by
    rw [TypeRef.toJson]
    have hargs : ReadsBack TypeRef.readAll _ args :=
      .list (fun _ _ => rfl) (TypeRef.readsBackAll args)
    refine .taggedRecord (by simp [hargs.plain]) fun d hd => ?_
    simp only [List.forall_mem_cons] at hd
    simp [TypeRef.read, TypeRef.readFields, hargs.eq, hd]
  | .param name => by
    rw [TypeRef.toJson]
    exact .tagged (.string name) fun d h => by simp [TypeRef.read]
  | .array elem => by
    rw [TypeRef.toJson]
    exact .tagged (TypeRef.readsBack elem) fun d h => by simp [TypeRef.read, h]

theorem TypeRef.readsBackAll : (ts : List TypeRef) →
    List.Forall₂ (ReadsBack TypeRef.read) (TypeRef.toJsonAll ts) ts
  | [] => .nil
  | t :: ts => .cons (TypeRef.readsBack t) (TypeRef.readsBackAll ts)

end

/-- A list of types. -/
theorem TypeRef.readsBackList (ts : List TypeRef) :
    ReadsBack TypeRef.readAll (.arr (TypeRef.toJsonAll ts)) ts :=
  .list (fun _ _ => rfl) (TypeRef.readsBackAll ts)

theorem TypeRef.toJson_ne_null (t : TypeRef) : t.toJson ≠ .null := by
  cases t <;> simp [TypeRef.toJson, tagJson, Value.record, Value.string]

theorem MemberRef.readsBack (m : MemberRef) : ReadsBack MemberRef.read m.toJson m := by
  have howner := m.owner.readsBack
  refine .record (by simp [howner.plain]) fun d hd => ?_
  simp only [List.forall_mem_cons] at hd
  simp [MemberRef.read, howner.eq, hd]

/-- A member reference that need not be there. -/
theorem MemberRef.readsBackOption (m : Option MemberRef) :
    ReadsBack (fun d => Fields.orNull (MemberRef.read d)) (.ofOption MemberRef.toJson m) m :=
  .ofOption (fun m _ => m.readsBack) fun _ => nofun

/-! ## Declarations without bodies -/

theorem RefKind.readsBack (k : RefKind) : ReadsBack (readEnum RefKind.names) k.toJson k :=
  .enum (by cases k <;> rfl)

theorem AttributeKind.readsBack (k : AttributeKind) : ReadsBack AttributeKind.read k.toJson k := by
  cases k with
  | unscopedRef => exact ⟨.string _, fun d _ => by cases d <;> rfl⟩
  | other name => exact .tagged (.string name) fun d h => by simp [AttributeKind.read]

theorem Attribute.readsBack (a : Attribute) : ReadsBack Attribute.read a.toJson a := by
  have hkind := a.kind.readsBack
  have hspan := a.span.readsBack
  refine .record (by simp [hkind.plain, hspan.plain]) fun d hd => ?_
  simp only [List.forall_mem_cons] at hd
  simp [Attribute.read, hkind.eq, hspan.eq, hd]

/-- A list of attributes. -/
theorem Attribute.readsBackList (l : List Attribute) :
    ReadsBack (readList Attribute.read) (.ofList Attribute.toJson l) l :=
  .ofList fun a _ => a.readsBack

theorem Param.readsBack (p : Param) : ReadsBack Param.read p.toJson p := by
  have hty := p.ty.readsBack
  have hkind := p.refKind.readsBack
  have hattrs := Attribute.readsBackList p.attrs
  have hspan := p.span.readsBack
  refine .record (by simp [hty.plain, hkind.plain, hattrs.plain, hspan.plain]) fun d hd => ?_
  simp only [List.forall_mem_cons] at hd
  simp [Param.read, hty.eq, hkind.eq, hattrs.eq, hspan.eq, hd]

/-- A list of parameters. -/
theorem Param.readsBackList (l : List Param) :
    ReadsBack (readList Param.read) (.ofList Param.toJson l) l :=
  .ofList fun p _ => p.readsBack

theorem ConstraintKind.readsBack (k : ConstraintKind) :
    ReadsBack ConstraintKind.read k.toJson k := by
  cases k with
  | bound ty => exact .tagged ty.readsBack fun d h => by simp [ConstraintKind.read, h]
  | _ => exact ⟨.string _, fun d _ => by cases d <;> rfl⟩

theorem Constraint.readsBack (c : Constraint) : ReadsBack Constraint.read c.toJson c := by
  have hkind := c.kind.readsBack
  have hspan := c.span.readsBack
  refine .record (by simp [hkind.plain, hspan.plain]) fun d hd => ?_
  simp only [List.forall_mem_cons] at hd
  simp [Constraint.read, hkind.eq, hspan.eq, hd]

theorem TypeParam.readsBack (p : TypeParam) : ReadsBack TypeParam.read p.toJson p := by
  have hconstraints : ReadsBack (readList Constraint.read) _ p.constraints :=
    .ofList fun c _ => c.readsBack
  have hspan := p.span.readsBack
  refine .record (by simp [hconstraints.plain, hspan.plain]) fun d hd => ?_
  simp only [List.forall_mem_cons] at hd
  simp [TypeParam.read, hconstraints.eq, hspan.eq, hd]

/-- A list of type parameters. -/
theorem TypeParam.readsBackList (l : List TypeParam) :
    ReadsBack (readList TypeParam.read) (.ofList TypeParam.toJson l) l :=
  .ofList fun p _ => p.readsBack

theorem Modifiers.readsBack (m : Modifiers) : ReadsBack Modifiers.read m.toJson m := by
  refine .record (by simp) fun d _ => ?_
  simp [Modifiers.read]

theorem ReturnType.readsBack (r : ReturnType) : ReadsBack ReturnType.read r.toJson r := by
  have hty := r.ty.readsBack
  have hkind := r.refKind.readsBack
  refine .record (by simp [hty.plain, hkind.plain]) fun d hd => ?_
  simp only [List.forall_mem_cons] at hd
  simp [ReturnType.read, hty.eq, hkind.eq, hd]

theorem Literal.readsBack (l : Literal) : ReadsBack Literal.read l.toJson l := by
  cases l with
  | int n => exact .tagged (.int64 n) fun d h => by simp [Literal.read]
  | bool b => exact .tagged (.bool b) fun d h => by simp [Literal.read]
  | str s => exact .tagged (.string s) fun d h => by simp [Literal.read]
  | null | default => exact ⟨.string _, fun d _ => by cases d <;> rfl⟩

theorem MemberAccess.readsBack (m : MemberAccess) : ReadsBack MemberAccess.read m.toJson m := by
  cases m with
  | field owner name =>
    have howner := owner.readsBack
    refine .taggedRecord (by simp [howner.plain]) fun d hd => ?_
    simp only [List.forall_mem_cons] at hd
    simp [MemberAccess.read, MemberAccess.readFields, howner.eq, hd]
  | property getter =>
    exact .tagged getter.readsBack fun d h => by simp [MemberAccess.read, h]

theorem Enumerator.readsBack (e : Enumerator) : ReadsBack Enumerator.read e.toJson e := by
  have hty := e.ty.readsBack
  have helement := e.elementTy.readsBack
  have hget := e.getEnumerator.readsBack
  have hmove := e.moveNext.readsBack
  have hcurrent := e.current.readsBack
  have hdispose := MemberRef.readsBackOption e.dispose
  refine .record (by simp [hty.plain, helement.plain, hget.plain, hmove.plain, hcurrent.plain,
    hdispose.plain]) fun d hd => ?_
  simp only [List.forall_mem_cons] at hd
  simp [Enumerator.read, hty.eq, helement.eq, hget.eq, hmove.eq, hcurrent.eq, hdispose.eq, hd]

theorem FieldDecl.readsBack (f : FieldDecl) : ReadsBack FieldDecl.read f.toJson f := by
  have hty := f.ty.readsBack
  have hspan := f.span.readsBack
  refine .record (by simp [hty.plain, hspan.plain]) fun d hd => ?_
  simp only [List.forall_mem_cons] at hd
  simp [FieldDecl.read, hty.eq, hspan.eq, hd]

end StackEscape
