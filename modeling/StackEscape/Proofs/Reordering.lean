import Mathlib.Data.List.Forall2
import Mathlib.Data.List.Nodup
import Mathlib.Data.List.Perm.Basic
import StackEscape.Proofs.Agreement

/-!
# Names in another order

The types of a program can be declared in any order. As long as each type has one declaration, every
name still means the same: types, members, fields, what interfaces require and what implements it.
Searches over base interfaces go through circles in the same order, wherever the interfaces stand.

## Main definitions

* `StackEscape.Program.Reordered` — the same types in some other order, each declared once.
* `StackEscape.Program.SameSymbols` — programs in which all names of types, members and fields mean
  the same.

## Main results

* `StackEscape.preorder_rel` — walks over corresponding graphs enter corresponding nodes.
* `StackEscape.Program.Reordered.sameSymbols`, `interfaceMembers_eq`, `implementing?_eq` — names do
  not depend on the order.
* `StackEscape.Program.SameSymbols.typeErrors_eq`, `fillOwn_eq`, `ofMember_eq` — where names mean
  the same, so do types, clauses and contracts.
-/

set_option autoImplicit false

namespace StackEscape

/-! ## Corresponding graphs -/

section Lists

variable {α : Type} {l : List α} {a : α}

/-- A list without duplicates that has one element only. -/
theorem eq_singleton_of_nodup (hnd : l.Nodup) (ha : a ∈ l) (hall : ∀ b ∈ l, b = a) : l = [a] := by
  have hperm : l.Perm [a] := (List.perm_ext_iff_of_nodup hnd (List.nodup_singleton a)).2 fun b =>
    ⟨fun hb => List.mem_singleton.2 (hall b hb), fun hb => List.mem_singleton.1 hb ▸ ha⟩
  exact List.perm_singleton.1 hperm

end Lists

section Graphs

variable {α β : Type} [DecidableEq α] [DecidableEq β] {R : α → β → Prop}

/-- Walks over graphs whose nodes correspond to each other enter corresponding nodes. -/
theorem preorder_rel (hR : Relator.BiUnique R) {succ : α → List α} {succ' : β → List β}
    (hsucc : ∀ a b, R a b → List.Forall₂ R (succ a) (succ' b)) {pending : List α}
    {pending' : List β} (hpending : ∀ a b, R a b → (a ∈ pending ↔ b ∈ pending')) {stack : List α}
    {stack' : List β} (hstack : List.Forall₂ R stack stack') :
    List.Forall₂ R (preorder succ pending stack) (preorder succ' pending' stack') := by
  fun_induction preorder succ pending stack generalizing pending' stack' with
  | case1 pending =>
    obtain rfl := List.forall₂_nil_left_iff.1 hstack
    rw [preorder]
    exact .nil
  | case2 pending a rest ha ih =>
    obtain ⟨b, rest', hab, hrest, rfl⟩ := List.forall₂_cons_left_iff.1 hstack
    rw [preorder, dif_pos ((hpending a b hab).1 ha)]
    refine .cons hab (ih (fun x y hxy => ?_) (List.rel_append (hsucc a b hab) hrest))
    have hsame : x = a ↔ y = b :=
      ⟨fun h => hR.2 hxy (h ▸ hab), fun h => hR.1 hxy (h ▸ hab)⟩
    rw [mem_without, mem_without, hpending x y hxy, ne_eq, ne_eq, hsame]
  | case3 pending a rest ha ih =>
    obtain ⟨b, rest', hab, hrest, rfl⟩ := List.forall₂_cons_left_iff.1 hstack
    rw [preorder, dif_neg (fun hb => ha ((hpending a b hab).2 hb))]
    exact ih hpending hrest

/-- A walk does not depend on the order of the pending nodes. -/
theorem preorder_congr {succ : α → List α} {pending pending' : List α}
    (h : ∀ a, a ∈ pending ↔ a ∈ pending') (stack : List α) :
    preorder succ pending stack = preorder succ pending' stack := by
  have hsame : List.Forall₂ Eq (preorder succ pending stack) (preorder succ pending' stack) :=
    preorder_rel ⟨fun _ _ _ hac hbc => hac.trans hbc.symm, fun _ _ _ hab hac => hab.symm.trans hac⟩
      (fun _ _ h => h ▸ List.forall₂_refl _) (fun _ _ hab => hab ▸ h _) (List.forall₂_refl _)
  exact List.forall₂_eq_eq_eq ▸ hsame

end Graphs

namespace Program

/-! ## Programs in which names mean the same -/

/-- All names of types, members and fields mean the same in the second program. -/
structure SameSymbols (p q : Program) : Prop where
  /-- The first part of a type. -/
  typeDecl : q.typeDecl? = p.typeDecl?
  /-- The member that a reference names. -/
  member : q.member? = p.member?
  /-- The field of a name. -/
  field : q.field? = p.field?

namespace SameSymbols

variable {p q : Program} {caps : Capabilities} {scope : GenericScope}

theorem refl (p : Program) : p.SameSymbols p := ⟨rfl, rfl, rfl⟩

theorem symm (h : p.SameSymbols q) : q.SameSymbols p :=
  ⟨h.typeDecl.symm, h.member.symm, h.field.symm⟩

/-- Types have the same capabilities. -/
theorem of_eq (h : p.SameSymbols q) (caps : Capabilities) (scope : GenericScope) :
    caps.of q scope = caps.of p scope := by
  funext ty
  cases ty <;> simp only [Capabilities.of, Capabilities.ofNamed, h.typeDecl]

theorem capability_eq (h : p.SameSymbols q) (caps : Capabilities) (scope : GenericScope)
    (runtime : Bool) : TypeEnv.capability ⟨q, caps, scope, runtime⟩ =
      TypeEnv.capability ⟨p, caps, scope, runtime⟩ := h.of_eq caps scope

/-- The same types are stack-only. -/
theorem stackOnly_eq (h : p.SameSymbols q) (caps : Capabilities) (scope : GenericScope) :
    caps.stackOnly q scope = caps.stackOnly p scope := by
  funext ty
  simp only [Capabilities.stackOnly, h.of_eq]

/-- Clauses give their parameters the same capability. -/
theorem clause_eq (h : p.SameSymbols q) (caps : Capabilities) (siblings : List TypeParam)
    (outer : GenericScope) : Clause.capability ⟨q, caps, siblings, outer⟩ =
      Clause.capability ⟨p, caps, siblings, outer⟩ := by
  have hreference : Clause.saysReference ⟨q, caps, siblings, outer⟩ =
      Clause.saysReference ⟨p, caps, siblings, outer⟩ := by
    funext r
    simp only [Clause.saysReference, h.typeDecl]
    rfl
  funext r
  simp only [Clause.capability, hreference]
  rfl

/-- Filing the clauses of a declaration has the same effect. -/
theorem fillOwn_eq (h : p.SameSymbols q) (caps : Capabilities) (owner : String)
    (params : List TypeParam) (outer : GenericScope) :
    caps.fillOwn q owner params outer = caps.fillOwn p owner params outer := by
  simp only [Capabilities.fillOwn, Capabilities.fillOne, h.clause_eq]

/-- Declarations have the same contracts. -/
theorem build_eq (h : p.SameSymbols q) (caps : Capabilities) (owner : TypeDecl) (decl : FnDecl)
    (key : String) (scope : GenericScope) (isLocal : Bool) :
    Contract.build caps q owner decl key scope isLocal =
      Contract.build caps p owner decl key scope isLocal := by
  simp only [Contract.build, h.stackOnly_eq]

theorem ofMember_eq (h : p.SameSymbols q) (caps : Capabilities) (m : Member) :
    Contract.ofMember caps q m = Contract.ofMember caps p m := h.build_eq ..

/-- Fields have the same pairs. -/
theorem fieldPair_eq (h : p.SameSymbols q) (caps : Capabilities) (scope : GenericScope)
    (runtime : Bool) : TypeEnv.fieldPair ⟨q, caps, scope, runtime⟩ =
      TypeEnv.fieldPair ⟨p, caps, scope, runtime⟩ := by
  have hcap := h.capability_eq caps scope runtime
  funext receiver owner name ty
  simp only [TypeEnv.fieldPair, TypeEnv.isHeapType_congr hcap, TypeEnv.stackOnly_congr hcap,
    h.field]

/-- The same type arguments are admitted. -/
theorem argErrors_eq (h : p.SameSymbols q) (caps : Capabilities) (scope : GenericScope)
    (runtime : Bool) : TypeEnv.argErrors ⟨q, caps, scope, runtime⟩ =
      TypeEnv.argErrors ⟨p, caps, scope, runtime⟩ := by
  have hcap := TypeEnv.stackOnly_congr (h.capability_eq caps scope runtime)
  have hadmits : TypeEnv.admits ⟨q, caps, scope, runtime⟩ =
      TypeEnv.admits ⟨p, caps, scope, runtime⟩ := rfl
  funext generic owner params args span
  simp only [TypeEnv.argErrors, TypeEnv.argError, hcap, hadmits]

mutual

/-- The same is wrong with a type. -/
theorem typeErrors_eq (h : p.SameSymbols q) (caps : Capabilities) (scope : GenericScope)
    (runtime : Bool) (span : Span) : (ty : TypeRef) →
    TypeEnv.typeErrors ⟨q, caps, scope, runtime⟩ span ty =
      TypeEnv.typeErrors ⟨p, caps, scope, runtime⟩ span ty
  | .void | .primitive _ | .object | .dynamic | .param _ => by simp only [TypeEnv.typeErrors]
  | .array elem => by
    simp only [TypeEnv.typeErrors, TypeEnv.stackOnly_congr (h.capability_eq caps scope runtime),
      typeErrors_eq h caps scope runtime span elem]
  | .named name args => by
    simp only [TypeEnv.typeErrors, h.typeDecl, h.argErrors_eq,
      allTypeErrors_eq h caps scope runtime span args]

theorem allTypeErrors_eq (h : p.SameSymbols q) (caps : Capabilities) (scope : GenericScope)
    (runtime : Bool) (span : Span) : (tys : List TypeRef) →
    TypeEnv.allTypeErrors ⟨q, caps, scope, runtime⟩ span tys =
      TypeEnv.allTypeErrors ⟨p, caps, scope, runtime⟩ span tys
  | [] => by simp only [TypeEnv.allTypeErrors]
  | ty :: tys => by
    simp only [TypeEnv.allTypeErrors, typeErrors_eq h caps scope runtime span ty,
      allTypeErrors_eq h caps scope runtime span tys]

end

end SameSymbols

/-! ## The same types in some other order -/

/-- The second program has the types of the first one in some order, and each type is declared
once. -/
structure Reordered (p q : Program) : Prop where
  /-- The same types. -/
  perm : p.types.Perm q.types
  /-- No type has several parts. -/
  names : p.typeNames.Nodup

namespace Reordered

variable {p q : Program}

theorem symm (h : p.Reordered q) : q.Reordered p :=
  ⟨h.perm.symm, (h.perm.map TypeDecl.name).nodup_iff.1 h.names⟩

theorem mem_types (h : p.Reordered q) {t : TypeDecl} : t ∈ q.types ↔ t ∈ p.types :=
  h.perm.symm.mem_iff

theorem mem_typeNames (h : p.Reordered q) {name : String} :
    name ∈ q.typeNames ↔ name ∈ p.typeNames := (h.perm.map TypeDecl.name).symm.mem_iff

/-- The members are the same, in some order. -/
theorem members_perm (h : p.Reordered q) : p.members.Perm q.members := h.perm.flatMap_right _

/-- No type is declared twice. -/
theorem nodup_types (h : p.Reordered q) : p.types.Nodup := h.names.of_map _

/-- A type is known by its name. -/
theorem type_eq (h : p.Reordered q) {t u : TypeDecl} (ht : t ∈ p.types) (hu : u ∈ p.types)
    (hname : t.name = u.name) : t = u := List.inj_on_of_nodup_map h.names ht hu hname

/-- A declared type is its only part. -/
theorem parts_of_mem (h : p.Reordered q) {t : TypeDecl} (ht : t ∈ p.types) :
    p.parts t.name = [t] := by
  have hall : ∀ u ∈ p.parts t.name, u = t := fun u hu =>
    have hu := List.mem_filter.1 hu
    h.type_eq hu.1 ht (of_decide_eq_true hu.2)
  have hmem : t ∈ p.parts t.name := List.mem_filter.2 ⟨ht, decide_eq_true rfl⟩
  exact eq_singleton_of_nodup (h.nodup_types.filter _) hmem hall

/-- What is not declared has no parts. -/
theorem parts_of_not_mem {name : String} (hname : name ∉ p.typeNames) : p.parts name = [] :=
  List.filter_eq_nil_iff.2 fun _ ht hdecide =>
    hname (of_decide_eq_true hdecide ▸ List.mem_map_of_mem ht)

/-- Types have the same parts. -/
theorem parts_eq (h : p.Reordered q) : q.parts = p.parts := by
  funext name
  by_cases hname : name ∈ p.typeNames
  · obtain ⟨t, ht, rfl⟩ := List.mem_map.1 hname
    rw [h.parts_of_mem ht, h.symm.parts_of_mem (h.mem_types.2 ht)]
  · rw [parts_of_not_mem hname, parts_of_not_mem (fun hq => hname (h.mem_typeNames.1 hq))]

theorem typeDecl?_eq (h : p.Reordered q) : q.typeDecl? = p.typeDecl? := by
  funext name
  have hfirst (r : Program) : r.typeDecl? name = (r.parts name).head? := List.head?_filter.symm
  rw [hfirst, hfirst, h.parts_eq]

theorem searchOrder_eq (h : p.Reordered q) : q.searchOrder = p.searchOrder := by
  have hbases : q.searchedBases = p.searchedBases := by
    funext name
    simp only [searchedBases, h.typeDecl?_eq]
  funext owner
  rw [searchOrder, searchOrder, hbases]
  exact preorder_congr (fun _ => h.mem_typeNames) [owner]

theorem member?_eq (h : p.Reordered q) : q.member? = p.member? := by
  funext r
  simp only [member?, findMember, declared?, h.searchOrder_eq, h.parts_eq]

theorem field?_eq (h : p.Reordered q) : q.field? = p.field? := by
  funext owner name
  simp only [field?, h.parts_eq]

/-- All names mean the same. -/
theorem sameSymbols (h : p.Reordered q) : p.SameSymbols q :=
  ⟨h.typeDecl?_eq, h.member?_eq, h.field?_eq⟩

/-- Required members have the same implementations. -/
theorem implementing?_eq (h : p.Reordered q) : q.implementing? = p.implementing? := by
  funext ty required
  simp only [implementing?, h.parts_eq]

/-! ### What interfaces require -/

/-- Nodes of the walks over interfaces that correspond to each other: the same name, or positions of
the same type. -/
inductive SameNode (p q : Program) : InterfaceNode → InterfaceNode → Prop where
  | named (name : String) : SameNode p q (.named name) (.named name)
  | part {t : TypeDecl} {i j : Nat} (hi : p.types[i]? = some t) (hj : q.types[j]? = some t) :
    SameNode p q (.part i) (.part j)

namespace SameNode

theorem symm {x y : InterfaceNode} (h : SameNode p q x y) : SameNode q p y x := by
  cases h with
  | named name => exact .named name
  | part hi hj => exact .part hj hi

/-- A node corresponds to one node only. -/
theorem right_unique (h : p.Reordered q) : Relator.RightUnique (SameNode p q) := by
  intro x y z hy hz
  cases hy with
  | named name => cases hz; rfl
  | @part t i j hi hj =>
    cases hz with
    | @part u _ k hi' hk =>
      obtain rfl : t = u := Option.some.inj (hi.symm.trans hi')
      have hlt : j < q.types.length := (List.getElem?_eq_some_iff.1 hj).1
      rw [(List.getElem?_inj hlt h.symm.nodup_types).1 (hj.trans hk.symm)]

theorem biUnique (h : p.Reordered q) : Relator.BiUnique (SameNode p q) :=
  ⟨fun _ _ _ hy hz => right_unique h.symm hy.symm hz.symm, right_unique h⟩

/-- Corresponding nodes have the same members. -/
theorem membersAt_eq {x y : InterfaceNode} (h : SameNode p q x y) :
    q.membersAt y = p.membersAt x := by
  cases h with
  | named name => rfl
  | part hi hj => simp only [membersAt, hi, hj]

/-- Corresponding nodes are nodes of both walks. -/
theorem mem_iff (h : p.Reordered q) {x y : InterfaceNode} (hxy : SameNode p q x y) :
    x ∈ p.interfaceNodes ↔ y ∈ q.interfaceNodes := by
  cases hxy with
  | named name => simp [interfaceNodes, h.mem_typeNames]
  | part hi hj =>
    have hi := (List.getElem?_eq_some_iff.1 hi).1
    have hj := (List.getElem?_eq_some_iff.1 hj).1
    simp [interfaceNodes, hi, hj]

end SameNode

/-- From a name the walk goes to the interface parts of that name. -/
theorem part_mem_interfaceSucc {name : String} {x : InterfaceNode} :
    x ∈ p.interfaceSucc (.named name) ↔
      ∃ t i, p.types[i]? = some t ∧ t.name = name ∧ t.kind = .interface ∧ x = .part i := by
  simp only [interfaceSucc, List.mem_map, List.mem_filter, Prod.exists,
    List.mem_zipIdx_iff_getElem?, Bool.and_eq_true, decide_eq_true_eq]
  constructor
  · rintro ⟨t, i, ⟨ht, hname, hkind⟩, rfl⟩
    exact ⟨t, i, ht, hname, hkind, rfl⟩
  · rintro ⟨t, i, ht, hname, hkind, rfl⟩
    exact ⟨t, i, ⟨ht, hname, hkind⟩, rfl⟩

/-- From the name of an interface the walk goes to its only part. -/
theorem interfaceSucc_named (h : p.Reordered q) {t : TypeDecl} {i : Nat}
    (hi : p.types[i]? = some t) (hkind : t.kind = .interface) :
    p.interfaceSucc (.named t.name) = [.part i] := by
  have hnd : (p.interfaceSucc (.named t.name)).Nodup := by
    have hpositions : (p.types.zipIdx.map Prod.snd).Nodup := by
      rw [List.zipIdx_map_snd]
      exact List.nodup_range'
    have hnodes : (p.types.zipIdx.map fun x => InterfaceNode.part x.2).Nodup :=
      List.map_map (g := InterfaceNode.part) (f := Prod.snd) ▸
        hpositions.map fun _ _ => InterfaceNode.part.inj
    exact hnodes.sublist (List.filter_sublist.map _)
  refine eq_singleton_of_nodup hnd (part_mem_interfaceSucc.2 ⟨t, i, hi, rfl, hkind, rfl⟩) ?_
  intro x hx
  obtain ⟨u, j, hj, hname, -, rfl⟩ := part_mem_interfaceSucc.1 hx
  obtain rfl := h.type_eq (List.mem_of_getElem? hj) (List.mem_of_getElem? hi) hname
  have hlt : j < p.types.length := (List.getElem?_eq_some_iff.1 hj).1
  rw [(List.getElem?_inj hlt h.nodup_types).1 (hj.trans hi.symm)]

/-- Corresponding nodes lead to corresponding nodes. -/
theorem interfaceSucc_rel (h : p.Reordered q) {x y : InterfaceNode} (hxy : SameNode p q x y) :
    List.Forall₂ (SameNode p q) (p.interfaceSucc x) (q.interfaceSucc y) := by
  cases hxy with
  | part hi hj =>
    simp only [interfaceSucc, hi, hj]
    refine List.rel_map (R := Eq) (fun x y hxy => ?_) (List.forall₂_refl _)
    rw [hxy]
    exact .named y
  | named name =>
    by_cases hfound : ∃ t ∈ p.types, t.name = name ∧ t.kind = .interface
    · obtain ⟨t, ht, rfl, hkind⟩ := hfound
      obtain ⟨i, hi⟩ := List.mem_iff_getElem?.1 ht
      obtain ⟨j, hj⟩ := List.mem_iff_getElem?.1 (h.mem_types.2 ht)
      rw [h.interfaceSucc_named hi hkind, h.symm.interfaceSucc_named hj hkind]
      exact .cons (.part hi hj) .nil
    · have hnone {r : Program} (hr : r.types ⊆ p.types) : r.interfaceSucc (.named name) = [] := by
        refine List.eq_nil_iff_forall_not_mem.2 fun x hx => hfound ?_
        obtain ⟨t, i, hi, hname, hkind, -⟩ := part_mem_interfaceSucc.1 hx
        exact ⟨t, hr (List.mem_of_getElem? hi), hname, hkind⟩
      rw [hnone (List.Subset.refl _), hnone h.perm.symm.subset]
      exact .nil

/-- Interfaces require the same members, in the same order. -/
theorem interfaceMembers_eq (h : p.Reordered q) : q.interfaceMembers = p.interfaceMembers := by
  funext ty
  unfold interfaceMembers
  cases ty.declName with
  | none => rfl
  | some name =>
    have hwalks : List.Forall₂ (SameNode p q)
        (preorder p.interfaceSucc p.interfaceNodes [.named name])
        (preorder q.interfaceSucc q.interfaceNodes [.named name]) :=
      preorder_rel (SameNode.biUnique h) (fun _ _ => h.interfaceSucc_rel)
        (fun _ _ => SameNode.mem_iff h) (.cons (.named name) .nil)
    have hmembers := List.rel_flatMap (P := Eq) hwalks
      fun _ _ hxy => List.forall₂_eq_eq_eq ▸ hxy.membersAt_eq.symm
    exact (List.forall₂_eq_eq_eq ▸ hmembers).symm

/-- Types have to implement the same members. -/
theorem requiredMembers_eq (h : p.Reordered q) : q.requiredMembers = p.requiredMembers := by
  funext t
  simp only [requiredMembers, h.interfaceMembers_eq]

end Reordered

end Program

end StackEscape
