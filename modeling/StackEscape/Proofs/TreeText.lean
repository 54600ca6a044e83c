import StackEscape.Proofs.DeclarationText

/-!
# Reading back bound trees

A program is read back from the compact text of its JSON form, as long as that form does not nest
deeper than a reader may look. The readers spend one level of their budget on every array and object, so
a budget of the depth of what was written is enough, for every part of the tree.

## Main results

* `StackEscape.Stmt.readsBack`, `Expr.readsBack`, `Pattern.readsBack` — the parts of a body are read
  back.
* `StackEscape.Program.load_compact_toJson` — a program is read back from its text.

## Implementation notes

A variant with fields nests twice, once for its name and once for its fields, and each of the two levels
is taken by a reader of its own; such a variant is shown to be read back in these two steps.
-/

set_option autoImplicit false

namespace StackEscape

open Json Value

theorem Expr.toJson_ne_null (e : Expr) : e.toJson ≠ .null := by
  cases e
  nofun

theorem MemberKind.readsBack (k : MemberKind) :
    ReadsBack (readEnum MemberKind.names) (.string (nameIn MemberKind.names k)) k :=
  .enum (by cases k <;> rfl)

theorem BinOp.readsBack (op : BinOp) :
    ReadsBack (readEnum BinOp.names) (.string (nameIn BinOp.names op)) op :=
  .enum (by cases op <;> rfl)

/-! ## Bodies

The parts of a body refer to each other, so all of them are read back together, by recursion on the tree.
-/

/-- The value of a return may be missing. -/
theorem StmtKind.read_return (d : Nat) (v : Value) :
    StmtKind.read (d + 1) (tagJson "Return" v) = (Fields.orNull (Expr.read d) v).map .ret := by
  cases v <;> simp [StmtKind.read, Fields.orNull, Function.comp_def]

mutual

theorem FnDecl.readsBack : (f : FnDecl) → ReadsBack FnDecl.read f.toJson f
  | ⟨id, name, kind, modifiers, typeParams, params, ret, attrs, explicitImpl, overrides, body,
      span⟩ => by
    have hkind := kind.readsBack
    have hmodifiers := modifiers.readsBack
    have htypeParams := TypeParam.readsBackList typeParams
    have hparams := Param.readsBackList params
    have hret := ret.readsBack
    have hattrs := Attribute.readsBackList attrs
    have himpl := MemberRef.readsBackOption explicitImpl
    have hover := MemberRef.readsBackOption overrides
    have hbody := Stmt.readsBackOption body
    have hspan := span.readsBack
    rw [FnDecl.toJson]
    refine .record (by simp [NodeId.toJson, nat, hkind.plain, hmodifiers.plain, htypeParams.plain,
      hparams.plain, hret.plain, hattrs.plain, himpl.plain, hover.plain, hbody.plain, hspan.plain])
      fun d hd => ?_
    simp only [List.forall_mem_cons] at hd
    simp [FnDecl.read, NodeId.toJson, hkind.eq, hmodifiers.eq, htypeParams.eq, hparams.eq, hret.eq,
      hattrs.eq, himpl.eq, hover.eq, hbody.eq, hspan.eq, hd]

theorem Stmt.readsBack : (s : Stmt) → ReadsBack Stmt.read s.toJson s
  | ⟨id, kind, span⟩ => by
    have hkind := StmtKind.readsBack kind
    have hspan := span.readsBack
    rw [Stmt.toJson]
    refine .record (by simp [NodeId.toJson, nat, hkind.plain, hspan.plain]) fun d hd => ?_
    simp only [List.forall_mem_cons] at hd
    simp [Stmt.read, NodeId.toJson, hkind.eq, hspan.eq, hd]

theorem Stmt.readsBackAll : (ss : List Stmt) →
    List.Forall₂ (ReadsBack Stmt.read) (Stmt.toJsonAll ss) ss
  | [] => .nil
  | s :: ss => .cons (Stmt.readsBack s) (Stmt.readsBackAll ss)

theorem Stmt.readsBackOption : (o : Option (List Stmt)) →
    ReadsBack (fun d => Fields.orNull (Stmt.readAll d)) (Stmt.toJsonOption o) o
  | none => .orNull_none
  | some ss => .orNull_some (.list (fun _ _ => rfl) (Stmt.readsBackAll ss)) nofun

theorem StmtKind.readsBack : (k : StmtKind) → ReadsBack StmtKind.read k.toJson k
  | .expr e => by
    rw [StmtKind.toJson]
    exact .tagged (Expr.readsBack e) fun d h => by simp [StmtKind.read, h]
  | .declare decl => by
    rw [StmtKind.toJson]
    exact .tagged (LocalDecl.readsBack decl) fun d h => by simp [StmtKind.read, h]
  | .assign target value byRef => by
    have htarget := Expr.readsBack target
    have hvalue := Expr.readsBack value
    rw [StmtKind.toJson]
    refine .taggedRecord (by simp [htarget.plain, hvalue.plain]) fun d hd => ?_
    simp only [List.forall_mem_cons] at hd
    simp [StmtKind.read, StmtKind.readFields, htarget.eq, hvalue.eq, hd]
  | .ret value => by
    have hvalue := Expr.readsBackOption value
    rw [StmtKind.toJson]
    exact .tagged hvalue fun d h => by rw [StmtKind.read_return, h, Option.map_some]
  | .block body => by
    have hbody : ReadsBack Stmt.readAll _ body :=
      .list (fun _ _ => rfl) (Stmt.readsBackAll body)
    rw [StmtKind.toJson]
    exact .tagged hbody fun d h => by simp [StmtKind.read, h]
  | .ifElse cond thenBranch elseBranch => by
    have hcond := Expr.readsBack cond
    have hthen : ReadsBack Stmt.readAll _ thenBranch :=
      .list (fun _ _ => rfl) (Stmt.readsBackAll thenBranch)
    have helse := Stmt.readsBackOption elseBranch
    rw [StmtKind.toJson]
    refine .taggedRecord (by simp [hcond.plain, hthen.plain, helse.plain]) fun d hd => ?_
    simp only [List.forall_mem_cons] at hd
    simp [StmtKind.read, StmtKind.readFields, hcond.eq, hthen.eq, helse.eq, hd]
  | .whileLoop cond body => by
    have hcond := Expr.readsBack cond
    have hbody : ReadsBack Stmt.readAll _ body :=
      .list (fun _ _ => rfl) (Stmt.readsBackAll body)
    rw [StmtKind.toJson]
    refine .taggedRecord (by simp [hcond.plain, hbody.plain]) fun d hd => ?_
    simp only [List.forall_mem_cons] at hd
    simp [StmtKind.read, StmtKind.readFields, hcond.eq, hbody.eq, hd]
  | .foreach loop => by
    rw [StmtKind.toJson]
    exact .tagged (ForeachStmt.readsBack loop) fun d h => by simp [StmtKind.read, h]
  | .using region => by
    rw [StmtKind.toJson]
    exact .tagged (UsingStmt.readsBack region) fun d h => by simp [StmtKind.read, h]
  | .localFunction decl => by
    rw [StmtKind.toJson]
    exact .tagged (FnDecl.readsBack decl) fun d h => by simp [StmtKind.read, h]
  | .yieldReturn e => by
    rw [StmtKind.toJson]
    exact .tagged (Expr.readsBack e) fun d h => by simp [StmtKind.read, h]

theorem LocalDecl.readsBack : (decl : LocalDecl) → ReadsBack LocalDecl.read decl.toJson decl
  | ⟨name, ty, refKind, isScoped, init, span⟩ => by
    have hty := ty.readsBack
    have hkind := refKind.readsBack
    have hinit := Expr.readsBackOption init
    have hspan := span.readsBack
    rw [LocalDecl.toJson]
    refine .record (by simp [hty.plain, hkind.plain, hinit.plain, hspan.plain]) fun d hd => ?_
    simp only [List.forall_mem_cons] at hd
    simp [LocalDecl.read, hty.eq, hkind.eq, hinit.eq, hspan.eq, hd]

theorem ForeachStmt.readsBack : (loop : ForeachStmt) →
    ReadsBack ForeachStmt.read loop.toJson loop
  | ⟨binding, byRef, collection, enumerator, isAwait, body⟩ => by
    have hbinding := Pattern.readsBack binding
    have hcollection := Expr.readsBack collection
    have henumerator := enumerator.readsBack
    have hbody : ReadsBack Stmt.readAll _ body :=
      .list (fun _ _ => rfl) (Stmt.readsBackAll body)
    rw [ForeachStmt.toJson]
    refine .record (by simp [hbinding.plain, hcollection.plain, henumerator.plain, hbody.plain])
      fun d hd => ?_
    simp only [List.forall_mem_cons] at hd
    simp [ForeachStmt.read, hbinding.eq, hcollection.eq, henumerator.eq, hbody.eq, hd]

theorem UsingStmt.readsBack : (region : UsingStmt) →
    ReadsBack UsingStmt.read region.toJson region
  | ⟨resource, dispose, isAwait, body⟩ => by
    have hresource := UsingResource.readsBack resource
    have hdispose := MemberRef.readsBackOption dispose
    have hbody : ReadsBack Stmt.readAll _ body :=
      .list (fun _ _ => rfl) (Stmt.readsBackAll body)
    rw [UsingStmt.toJson]
    refine .record (by simp [hresource.plain, hdispose.plain, hbody.plain]) fun d hd => ?_
    simp only [List.forall_mem_cons] at hd
    simp [UsingStmt.read, hresource.eq, hdispose.eq, hbody.eq, hd]

theorem UsingResource.readsBack : (r : UsingResource) → ReadsBack UsingResource.read r.toJson r
  | .expr e => by
    rw [UsingResource.toJson]
    exact .tagged (Expr.readsBack e) fun d h => by simp [UsingResource.read, h]
  | .declare decl => by
    rw [UsingResource.toJson]
    exact .tagged (LocalDecl.readsBack decl) fun d h => by simp [UsingResource.read, h]

theorem Expr.readsBack : (e : Expr) → ReadsBack Expr.read e.toJson e
  | ⟨id, kind, ty, span⟩ => by
    have hkind := ExprKind.readsBack kind
    have hty := ty.readsBack
    have hspan := span.readsBack
    rw [Expr.toJson]
    refine .record (by simp [NodeId.toJson, nat, hkind.plain, hty.plain, hspan.plain])
      fun d hd => ?_
    simp only [List.forall_mem_cons] at hd
    simp [Expr.read, NodeId.toJson, hkind.eq, hty.eq, hspan.eq, hd]

theorem Expr.readsBackAll : (es : List Expr) →
    List.Forall₂ (ReadsBack Expr.read) (Expr.toJsonAll es) es
  | [] => .nil
  | e :: es => .cons (Expr.readsBack e) (Expr.readsBackAll es)

theorem Expr.readsBackOption : (o : Option Expr) →
    ReadsBack (fun d => Fields.orNull (Expr.read d)) (Expr.toJsonOption o) o
  | none => .orNull_none
  | some e => .orNull_some (Expr.readsBack e) e.toJson_ne_null

theorem ExprKind.readsBack : (k : ExprKind) → ReadsBack ExprKind.read k.toJson k
  | .literal value => by
    rw [ExprKind.toJson]
    exact .tagged value.readsBack fun d h => by simp [ExprKind.read, h]
  | .var name => by
    rw [ExprKind.toJson]
    exact .tagged (.string name) fun d h => by simp [ExprKind.read]
  | .thisRef => by
    rw [ExprKind.toJson]
    exact ⟨.string _, fun d _ => by cases d <;> rfl⟩
  | .field receiver owner name => by
    have hreceiver := Expr.readsBackOption receiver
    have howner := owner.readsBack
    rw [ExprKind.toJson]
    refine .taggedRecord (by simp [hreceiver.plain, howner.plain]) fun d hd => ?_
    simp only [List.forall_mem_cons] at hd
    simp [ExprKind.read, ExprKind.readFields, hreceiver.eq, howner.eq, hd]
  | .property receiver getter args => by
    have hreceiver := Expr.readsBackOption receiver
    have hgetter := getter.readsBack
    have hargs : ReadsBack Arg.readAll _ args :=
      .list (fun _ _ => rfl) (Arg.readsBackAll args)
    rw [ExprKind.toJson]
    refine .taggedRecord (by simp [hreceiver.plain, hgetter.plain, hargs.plain]) fun d hd => ?_
    simp only [List.forall_mem_cons] at hd
    simp [ExprKind.read, ExprKind.readFields, hreceiver.eq, hgetter.eq, hargs.eq, hd]
  | .call receiver method typeArgs args => by
    have hreceiver := Expr.readsBackOption receiver
    have hmethod := method.readsBack
    have htypeArgs := TypeRef.readsBackList typeArgs
    have hargs : ReadsBack Arg.readAll _ args :=
      .list (fun _ _ => rfl) (Arg.readsBackAll args)
    rw [ExprKind.toJson]
    refine .taggedRecord (by simp [hreceiver.plain, hmethod.plain, htypeArgs.plain, hargs.plain])
      fun d hd => ?_
    simp only [List.forall_mem_cons] at hd
    simp [ExprKind.read, ExprKind.readFields, hreceiver.eq, hmethod.eq, htypeArgs.eq, hargs.eq, hd]
  | .create ctor args => by
    have hctor := MemberRef.readsBackOption ctor
    have hargs : ReadsBack Arg.readAll _ args :=
      .list (fun _ _ => rfl) (Arg.readsBackAll args)
    rw [ExprKind.toJson]
    refine .taggedRecord (by simp [hctor.plain, hargs.plain]) fun d hd => ?_
    simp only [List.forall_mem_cons] at hd
    simp [ExprKind.read, ExprKind.readFields, hctor.eq, hargs.eq, hd]
  | .stackAlloc elem len => by
    have helem := elem.readsBack
    have hlen := Expr.readsBack len
    rw [ExprKind.toJson]
    refine .taggedRecord (by simp [helem.plain, hlen.plain]) fun d hd => ?_
    simp only [List.forall_mem_cons] at hd
    simp [ExprKind.read, ExprKind.readFields, helem.eq, hlen.eq, hd]
  | .conditional cond thenExpr elseExpr byRef => by
    have hcond := Expr.readsBack cond
    have hthen := Expr.readsBack thenExpr
    have helse := Expr.readsBack elseExpr
    rw [ExprKind.toJson]
    refine .taggedRecord (by simp [hcond.plain, hthen.plain, helse.plain]) fun d hd => ?_
    simp only [List.forall_mem_cons] at hd
    simp [ExprKind.read, ExprKind.readFields, hcond.eq, hthen.eq, helse.eq, hd]
  | .convert operand explicit => by
    have hoperand := Expr.readsBack operand
    rw [ExprKind.toJson]
    refine .taggedRecord (by simp [hoperand.plain]) fun d hd => ?_
    simp only [List.forall_mem_cons] at hd
    simp [ExprKind.read, ExprKind.readFields, hoperand.eq, hd]
  | .binary op left right => by
    have hop := op.readsBack
    have hleft := Expr.readsBack left
    have hright := Expr.readsBack right
    rw [ExprKind.toJson]
    refine .taggedRecord (by simp [hleft.plain, hright.plain]) fun d hd => ?_
    simp only [List.forall_mem_cons] at hd
    simp [ExprKind.read, ExprKind.readFields, hop.eq, hleft.eq, hright.eq, hd]
  | .test operand pattern => by
    have hoperand := Expr.readsBack operand
    have hpattern := Pattern.readsBack pattern
    rw [ExprKind.toJson]
    refine .taggedRecord (by simp [hoperand.plain, hpattern.plain]) fun d hd => ?_
    simp only [List.forall_mem_cons] at hd
    simp [ExprKind.read, ExprKind.readFields, hoperand.eq, hpattern.eq, hd]
  | .lambda fn => by
    rw [ExprKind.toJson]
    exact .tagged (Lambda.readsBack fn) fun d h => by simp [ExprKind.read, h]
  | .arrayNew elem elems => by
    have helem := elem.readsBack
    have helems : ReadsBack Expr.readAll _ elems :=
      .list (fun _ _ => rfl) (Expr.readsBackAll elems)
    rw [ExprKind.toJson]
    refine .taggedRecord (by simp [helem.plain, helems.plain]) fun d hd => ?_
    simp only [List.forall_mem_cons] at hd
    simp [ExprKind.read, ExprKind.readFields, helem.eq, helems.eq, hd]
  | .anonymous members => by
    have hmembers : ReadsBack NamedExpr.readAll _ members :=
      .list (fun _ _ => rfl) (NamedExpr.readsBackAll members)
    rw [ExprKind.toJson]
    refine .taggedRecord (by simp [hmembers.plain]) fun d hd => ?_
    simp only [List.forall_mem_cons] at hd
    simp [ExprKind.read, ExprKind.readFields, hmembers.eq, hd]
  | .await operand => by
    rw [ExprKind.toJson]
    exact .tagged (Expr.readsBack operand) fun d h => by simp [ExprKind.read, h]
  | .dynamicInvoke receiver name args => by
    have hreceiver := Expr.readsBack receiver
    have hargs : ReadsBack Arg.readAll _ args :=
      .list (fun _ _ => rfl) (Arg.readsBackAll args)
    rw [ExprKind.toJson]
    refine .taggedRecord (by simp [hreceiver.plain, hargs.plain]) fun d hd => ?_
    simp only [List.forall_mem_cons] at hd
    simp [ExprKind.read, ExprKind.readFields, hreceiver.eq, hargs.eq, hd]
  | .outVar name => by
    rw [ExprKind.toJson]
    exact .tagged (.string name) fun d h => by simp [ExprKind.read]

theorem Arg.readsBack : (a : Arg) → ReadsBack Arg.read a.toJson a
  | ⟨mode, expr⟩ => by
    have hmode := mode.readsBack
    have hexpr := Expr.readsBack expr
    rw [Arg.toJson]
    refine .record (by simp [hmode.plain, hexpr.plain]) fun d hd => ?_
    simp only [List.forall_mem_cons] at hd
    simp [Arg.read, hmode.eq, hexpr.eq, hd]

theorem Arg.readsBackAll : (args : List Arg) →
    List.Forall₂ (ReadsBack Arg.read) (Arg.toJsonAll args) args
  | [] => .nil
  | a :: as => .cons (Arg.readsBack a) (Arg.readsBackAll as)

theorem NamedExpr.readsBack : (m : NamedExpr) → ReadsBack NamedExpr.read m.toJson m
  | ⟨name, value⟩ => by
    have hvalue := Expr.readsBack value
    rw [NamedExpr.toJson]
    refine ⟨.arr (by simp [hvalue.plain]), fun d hd => ?_⟩
    obtain ⟨b, rfl, hb⟩ := depth_arr_le_iff.1 hd
    simp only [List.forall_mem_cons] at hb
    simp [NamedExpr.read, hvalue.eq, hb]

theorem NamedExpr.readsBackAll : (ms : List NamedExpr) →
    List.Forall₂ (ReadsBack NamedExpr.read) (NamedExpr.toJsonAll ms) ms
  | [] => .nil
  | m :: ms => .cons (NamedExpr.readsBack m) (NamedExpr.readsBackAll ms)

theorem Lambda.readsBack : (fn : Lambda) → ReadsBack Lambda.read fn.toJson fn
  | ⟨params, retTy, body, isExpressionTree, isStatic, isAsync⟩ => by
    have hparams := Param.readsBackList params
    have hret := retTy.readsBack
    have hbody : ReadsBack Stmt.readAll _ body :=
      .list (fun _ _ => rfl) (Stmt.readsBackAll body)
    rw [Lambda.toJson]
    refine .record (by simp [hparams.plain, hret.plain, hbody.plain]) fun d hd => ?_
    simp only [List.forall_mem_cons] at hd
    simp [Lambda.read, hparams.eq, hret.eq, hbody.eq, hd]

theorem Pattern.readsBack : (p : Pattern) → ReadsBack Pattern.read p.toJson p
  | .discard => by
    rw [Pattern.toJson]
    exact ⟨.string _, fun d _ => by cases d <;> rfl⟩
  | .declaration name ty span => by
    have hty := ty.readsBack
    have hspan := span.readsBack
    rw [Pattern.toJson]
    refine .taggedRecord (by simp [hty.plain, hspan.plain]) fun d hd => ?_
    simp only [List.forall_mem_cons] at hd
    simp [Pattern.read, Pattern.readFields, hty.eq, hspan.eq, hd]
  | .typeTest ty => by
    rw [Pattern.toJson]
    exact .tagged ty.readsBack fun d h => by simp [Pattern.read, h]
  | .constant e => by
    rw [Pattern.toJson]
    exact .tagged (Expr.readsBack e) fun d h => by simp [Pattern.read, h]
  | .property ty subpatterns => by
    have hty : ReadsBack (fun d => Fields.orNull (TypeRef.read d)) _ ty :=
      .ofOption (fun t _ => t.readsBack) TypeRef.toJson_ne_null
    have hsub : ReadsBack SubPattern.readAll _ subpatterns :=
      .list (fun _ _ => rfl) (SubPattern.readsBackAll subpatterns)
    rw [Pattern.toJson]
    refine .taggedRecord (by simp [hty.plain, hsub.plain]) fun d hd => ?_
    simp only [List.forall_mem_cons] at hd
    simp [Pattern.read, Pattern.readFields, hty.eq, hsub.eq, hd]
  | .positional deconstruct subpatterns componentTys => by
    have hdeconstruct := deconstruct.readsBack
    have hsub : ReadsBack Pattern.readAll _ subpatterns :=
      .list (fun _ _ => rfl) (Pattern.readsBackAll subpatterns)
    have htys := TypeRef.readsBackList componentTys
    rw [Pattern.toJson]
    refine .taggedRecord (by simp [hdeconstruct.plain, hsub.plain, htys.plain]) fun d hd => ?_
    simp only [List.forall_mem_cons] at hd
    simp [Pattern.read, Pattern.readFields, hdeconstruct.eq, hsub.eq, htys.eq, hd]
  | .negated inner => by
    rw [Pattern.toJson]
    exact .tagged (Pattern.readsBack inner) fun d h => by simp [Pattern.read, h]

theorem Pattern.readsBackAll : (ps : List Pattern) →
    List.Forall₂ (ReadsBack Pattern.read) (Pattern.toJsonAll ps) ps
  | [] => .nil
  | p :: ps => .cons (Pattern.readsBack p) (Pattern.readsBackAll ps)

theorem SubPattern.readsBack : (s : SubPattern) → ReadsBack SubPattern.read s.toJson s
  | ⟨member, ty, pattern, span⟩ => by
    have hmember := member.readsBack
    have hty := ty.readsBack
    have hpattern := Pattern.readsBack pattern
    have hspan := span.readsBack
    rw [SubPattern.toJson]
    refine .record (by simp [hmember.plain, hty.plain, hpattern.plain, hspan.plain])
      fun d hd => ?_
    simp only [List.forall_mem_cons] at hd
    simp [SubPattern.read, hmember.eq, hty.eq, hpattern.eq, hspan.eq, hd]

theorem SubPattern.readsBackAll : (ss : List SubPattern) →
    List.Forall₂ (ReadsBack SubPattern.read) (SubPattern.toJsonAll ss) ss
  | [] => .nil
  | s :: ss => .cons (SubPattern.readsBack s) (SubPattern.readsBackAll ss)

end

/-! ## Programs -/

theorem TypeKind.readsBack (k : TypeKind) :
    ReadsBack (readEnum TypeKind.names) (.string (nameIn TypeKind.names k)) k :=
  .enum (by cases k <;> rfl)

theorem TypeDecl.readsBack (t : TypeDecl) : ReadsBack TypeDecl.read t.toJson t := by
  have hkind := t.kind.readsBack
  have htypeParams := TypeParam.readsBackList t.typeParams
  have hinterfaces := TypeRef.readsBackList t.interfaces
  have hparams := Param.readsBackList t.primaryParams
  have hfields : ReadsBack (readList FieldDecl.read) _ t.fields := .ofList fun f _ => f.readsBack
  have hmembers : ReadsBack (readList FnDecl.read) _ t.members := .ofList fun f _ => f.readsBack
  have hspan := t.span.readsBack
  refine .record (by simp [NodeId.toJson, nat, htypeParams.plain, hinterfaces.plain, hparams.plain,
    hfields.plain, hmembers.plain, hspan.plain]) fun d hd => ?_
  simp only [List.forall_mem_cons] at hd
  simp [TypeDecl.read, NodeId.toJson, hkind.eq, htypeParams.eq, hinterfaces.eq, hparams.eq,
    hfields.eq, hmembers.eq, hspan.eq, hd]

namespace Program

theorem readsBack (p : Program) : ReadsBack Program.read p.toJson p := by
  have htypes : ReadsBack (readList TypeDecl.read) _ p.types := .ofList fun t _ => t.readsBack
  refine .record (by simp [htypes.plain]) fun d hd => ?_
  simp only [List.forall_mem_cons] at hd
  simp [Program.read, htypes.eq, hd]

/-- **Reading undoes writing.** A program is read back from the compact text of its JSON form, if that
form nests arrays and objects fewer than 128 deep.

**Proof sketch.** What is written for a program is plain, so its text is read back as the same JSON
value. That value is read with a budget of 127 levels, and a budget of its depth is enough, by induction
on the tree. -/
theorem load_compact_toJson (p : Program) (h : p.toJson.depth < 128) :
    Program.load? p.toJson.compact = some p := by
  have hbudget : p.toJson.depth ≤ nestingLimit := Nat.le_of_lt_succ h
  rw [load?, p.readsBack.plain.read?_compact, Option.bind_some, ofJson?, p.readsBack.eq _ hbudget]

end Program

/-! ## A program at the limits of its numbers

A getter with a name in quotes, with the greatest identifier and offset, returns the least literal.
-/

namespace Quills

/-- The last offset. -/
def last : Span := ⟨.ofNat 0xFFFFFFFFFFFFFFFF, .ofNat 0xFFFFFFFFFFFFFFFF⟩

/-- The least literal. -/
def least : Expr := ⟨7, .literal (.int Int64.minValue), .int, last⟩

/-- The getter. -/
def getter : FnDecl where
  id := .ofNat 0xFFFFFFFF
  name := "get_\"\\\t\x01é"
  kind := .getter
  modifiers := ⟨true, false, false, false, false, true, false, false, false⟩
  typeParams := [⟨"T", [⟨.bound (.named "I" [.array .object]), .zero⟩], .zero⟩]
  params := []
  ret := .byValue .int
  attrs := [⟨.other "Pure", .zero⟩]
  explicitImpl := none
  overrides := some ⟨.named "Base" [], "get_"⟩
  body := some [⟨1, .ret (some least), .zero⟩, ⟨2, .ret none, last⟩]
  span := last

/-- A struct with the getter. -/
def program : Program :=
  ⟨[⟨0, "Quill", .struct, false, false, [], [], [], [], [getter], .zero⟩]⟩

theorem load_compact_toJson_quill :
    program.toJson.depth < 128 ∧ Program.load? program.toJson.compact = some program :=
  ⟨by decide +kernel, program.load_compact_toJson (by decide +kernel)⟩

end Quills

end StackEscape
