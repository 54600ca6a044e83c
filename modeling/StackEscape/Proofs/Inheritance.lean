import StackEscape.Proofs.DeclaredTypes
import StackEscape.Proofs.Hoisting

/-!
# Inherited capabilities

A member that overrides or explicitly implements another one takes over what that one's clauses say of
its type parameters, and so on to the root of the chain. The check of declarations files capabilities
while it goes, starts from every member in program order, and stops at what is filed already. Whatever
the order, what is filed at the end for a type parameter is what the root's own clause says, and nothing
is known of it if the chain has no root.

## Main definitions

* `StackEscape.Program.base?`, `Refines` — the member that a member refines.
* `StackEscape.Program.TakesOver` — the chain from a member to the clause that it takes over.
* `StackEscape.Program.Owed` — the capability that is owed to a type parameter of a member.
* `StackEscape.Capabilities.Inherits` — tables in which nothing but what is owed is filed.

## Main results

* `StackEscape.Program.owed_inherited` — what is found on the way to the root is owed to all on it.
* `StackEscape.Capabilities.Inherits.fillMember` — filing for a member keeps the table right.
* `StackEscape.Program.inherited_from_root` — what is filed at the end.
-/

set_option autoImplicit false

namespace StackEscape

/-! ## Chains -/

namespace Program

variable {p : Program} {index : Nat} {m n base root : Member} {q r : TypeParam}

/-- The member that a member overrides or, if it overrides none, implements explicitly. -/
def base? (p : Program) (m : Member) : Option Member := m.decl.base.bind p.member?

/-- The second member is the one that the first overrides or explicitly implements. -/
def Refines (p : Program) (m base : Member) : Prop := p.base? m = some base

/-- A member that another one refines is one of the program. -/
theorem mem_members_of_refines (h : p.Refines m base) : base ∈ p.members := by
  obtain ⟨_, _, hmember⟩ := Option.bind_eq_some_iff.1 h
  exact Covers.mem_of_member? hmember

/-- The chain from a member on ends with a root that does not refine any other, and all its members
have a type parameter at the index; the root has the given one. -/
inductive TakesOver (p : Program) (index : Nat) : Member → Member → TypeParam → Prop
  /-- The root. -/
  | root {m : Member} {q : TypeParam} (hbase : p.base? m = none)
      (hq : m.decl.typeParams[index]? = some q) : TakesOver p index m m q
  /-- A member that refines one of the chain. -/
  | link {m base root : Member} {q : TypeParam} (hbase : p.Refines m base)
      (hq : (m.decl.typeParams[index]?).isSome) (h : TakesOver p index base root q) :
      TakesOver p index m root q

namespace TakesOver

/-- All members of the chain have a type parameter at the index. -/
theorem isSome (h : p.TakesOver index m root r) : (m.decl.typeParams[index]?).isSome := by
  cases h with
  | root _ hq => rw [hq]; rfl
  | link _ hq _ => exact hq

/-- The chain of a member that refines another one goes on with that one. -/
theorem of_refines (h : p.TakesOver index m root r) (hbase : p.Refines m base) :
    p.TakesOver index base root r := by
  cases h with
  | root hnone _ => exact absurd (hnone.symm.trans hbase) (by simp)
  | link hbase' _ h => exact Option.some.inj (hbase'.symm.trans hbase) ▸ h

/-- The chain of a member ends in one place. -/
theorem unique {root' : Member} {r' : TypeParam} (h : p.TakesOver index m root r)
    (h' : p.TakesOver index m root' r') : root = root' ∧ r = r' := by
  induction h with
  | root hnone hq =>
    cases h' with
    | root _ hq' => exact ⟨rfl, Option.some.inj (hq.symm.trans hq')⟩
    | link hbase _ _ => exact absurd (hnone.symm.trans hbase) (by simp)
  | link hbase _ _ ih => exact ih (h'.of_refines hbase)

/-- A chain with an end meets no member twice. -/
theorem not_circular (h : p.TakesOver index m root r) (hn : Relation.ReflTransGen p.Refines m n) :
    ¬ Relation.TransGen p.Refines n n := by
  induction h generalizing n with
  | root hnone _ =>
    have hlast {x : Member} (hx : Relation.ReflTransGen p.Refines _ x) : x = _ :=
      (Relation.ReflTransGen.cases_head hx).elim Eq.symm fun ⟨y, hy, _⟩ =>
        absurd (hnone.symm.trans hy) (by simp)
    obtain rfl := hlast hn
    intro hcircle
    obtain ⟨y, hy, _⟩ := Relation.TransGen.head'_iff.1 hcircle
    exact absurd (hnone.symm.trans hy) (by simp)
  | @link m base root q hbase _ _ ih =>
    rcases Relation.ReflTransGen.cases_head hn with rfl | ⟨y, hy, hrest⟩
    · -- The circle leads from the base back to the member, and on to the base.
      intro hcircle
      obtain ⟨y, hy, hback⟩ := Relation.TransGen.head'_iff.1 hcircle
      obtain rfl := Option.some.inj (hbase.symm.trans hy)
      exact ih .refl (Relation.TransGen.tail' hback hbase)
    · obtain rfl := Option.some.inj (hbase.symm.trans hy)
      exact ih hrest

end TakesOver

/-! ## What is owed -/

/-- The capability is owed to a member's type parameter at the index: it is what the clause at the end
of the chain says or, if there is none, that nothing is known. -/
inductive Owed (p : Program) (caps : Capabilities) (index : Nat) (m : Member) : Capability → Prop
  /-- The chain has a root. -/
  | root {root : Member} {r : TypeParam} (h : p.TakesOver index m root r) :
      Owed p caps index m (Clause.capability ⟨p, caps, root.decl.typeParams, root.outerScope⟩ r)
  /-- The chain has none. -/
  | unknown (h : ∀ root r, ¬ p.TakesOver index m root r) : Owed p caps index m .unknown

/-- What is owed to a member that has a type parameter at the index is owed to all that refine it. -/
theorem Owed.of_refines {caps : Capabilities} {v : Capability} (h : p.Owed caps index base v)
    (hbase : p.Refines m base) (hq : (m.decl.typeParams[index]?).isSome) :
    p.Owed caps index m v := by
  cases h with
  | root h => exact .root (.link hbase hq h)
  | unknown h => exact .unknown fun root r hm => h root r (hm.of_refines hbase)

/-- Clauses of members only look at the type parameters of types. -/
theorem Owed.of_agree {c d : Capabilities} (hcd : Capabilities.Agree (· ∈ p.typeNames) c d)
    {v : Capability} (h : p.Owed c index m v) (hm : m ∈ p.members) : p.Owed d index m v := by
  cases h with
  | unknown h => exact .unknown h
  | @root root r h =>
    have hroot : root ∈ p.members := by
      induction h with
      | root => exact hm
      | link hbase _ _ ih => exact ih (mem_members_of_refines hbase)
    have howned : root.outerScope.OwnedBy (· ∈ p.typeNames) :=
      GenericScope.OwnedBy.push (fun _ hf => absurd hf List.not_mem_nil)
        (Surroundings.typeName_mem hroot) _
    rw [hcd.capability_eq howned]
    exact .root h

/-- No two types and members share a key, and no member has two type parameters of one name. -/
structure DistinctDeclarations (p : Program) : Prop where
  /-- The keys of types, whose parts have one key, and of members. -/
  keys : (p.typeNames.dedup ++ p.memberKeys).Nodup
  /-- The names of a member's type parameters. -/
  names : ∀ m ∈ p.members, (m.decl.typeParams.map TypeParam.name).Nodup

instance (p : Program) : Decidable p.DistinctDeclarations :=
  decidable_of_iff ((p.typeNames.dedup ++ p.memberKeys).Nodup ∧
      ∀ m ∈ p.members, (m.decl.typeParams.map TypeParam.name).Nodup)
    ⟨fun h => ⟨h.1, h.2⟩, fun h => ⟨h.keys, h.names⟩⟩

namespace DistinctDeclarations

/-- A member is known by its key. -/
theorem member_eq (h : p.DistinctDeclarations) (hm : m ∈ p.members) (hn : n ∈ p.members)
    (hkey : m.key = n.key) : m = n :=
  List.inj_on_of_nodup_map (List.nodup_append.1 h.keys).2.1 hm hn hkey

/-- No member has the key of a type. -/
theorem key_not_mem_typeNames (h : p.DistinctDeclarations) (hm : m ∈ p.members) :
    m.key ∉ p.typeNames := fun hmem =>
  (List.nodup_append.1 h.keys).2.2 _ (List.mem_dedup.2 hmem) _ (List.mem_map_of_mem hm) rfl

/-- A type parameter of a member is known by its key. -/
theorem param_eq (h : p.DistinctDeclarations) (hm : m ∈ p.members) (hn : n ∈ p.members) {i j : Nat}
    (hq : m.decl.typeParams[i]? = some q) (hr : n.decl.typeParams[j]? = some r)
    (hkey : (⟨m.key, q.name⟩ : TypeParamKey) = ⟨n.key, r.name⟩) : m = n ∧ i = j := by
  obtain ⟨hmember, hname⟩ := TypeParamKey.mk.inj hkey
  obtain rfl := h.member_eq hm hn hmember
  have hlt : i < (m.decl.typeParams.map TypeParam.name).length := by
    rw [List.length_map]
    exact (List.getElem?_eq_some_iff.1 hq).1
  refine ⟨rfl, (List.getElem?_inj hlt (h.names m hm)).1 ?_⟩
  rw [List.getElem?_map, List.getElem?_map, hq, hr, Option.map_some, Option.map_some, hname]

end DistinctDeclarations

end Program

/-! ## Tables in which nothing else is filed -/

/-- Of types, the table has what was filed when all types were entered; of members, it has nothing but
what is owed to their type parameters. -/
structure Capabilities.Inherits (p : Program) (c : Capabilities) : Prop where
  /-- The type parameters of types. -/
  types : Capabilities.Agree (· ∈ p.typeNames) (Declarations.entered p).caps c
  /-- The type parameters of members. -/
  members : ∀ m ∈ p.members, ∀ (index : Nat) (q : TypeParam) (v : Capability),
    m.decl.typeParams[index]? = some q → c.get? ⟨m.key, q.name⟩ = some v →
    p.Owed (Declarations.entered p).caps index m v
  /-- Nothing else. -/
  others : ∀ k : TypeParamKey, k.owner ∉ p.typeNames →
    (∀ m ∈ p.members, ∀ q ∈ m.decl.typeParams, k ≠ ⟨m.key, q.name⟩) → c.get? k = none

namespace Capabilities.Inherits

variable {p : Program} {c : Capabilities} {m : Member} {index : Nat} {q : TypeParam}

/-- What is owed may be filed. -/
theorem keep (h : c.Inherits p) (hp : p.DistinctDeclarations) (hm : m ∈ p.members)
    (hq : m.decl.typeParams[index]? = some q) {v : Capability}
    (hv : p.Owed (Declarations.entered p).caps index m v) :
    Inherits p (c.keep ⟨m.key, q.name⟩ v) where
  types k hk := by
    have hne : k ≠ ⟨m.key, q.name⟩ := by
      rintro rfl
      exact hp.key_not_mem_typeNames hm hk
    rw [Table.get?_keep, if_neg hne]
    exact h.types k hk
  members n hn j r w hr hw := by
    rw [Table.get?_keep] at hw
    split at hw
    · next hkey =>
      obtain ⟨rfl, rfl⟩ := hp.param_eq hn hm hr hq hkey
      cases hc : c.get? ⟨n.key, q.name⟩ with
      | none =>
        rw [hc] at hw
        exact Option.some.inj hw ▸ hv
      | some found =>
        rw [hc] at hw
        exact h.members n hn j q w hq (hc.trans hw)
    · exact h.members n hn j r w hr hw
  others k hk hnone := by
    rw [Table.get?_keep, if_neg (hnone m hm q (List.mem_of_getElem? hq))]
    exact h.others k hk hnone

/-- Steps that keep the table right, one after the other. -/
theorem foldl {σ α : Type} (caps : σ → Capabilities) {f : σ → α → σ} {l : List α}
    (h : ∀ s, ∀ a ∈ l, (caps s).Inherits p → (caps (f s a)).Inherits p) {s : σ}
    (hs : (caps s).Inherits p) : (caps (l.foldl f s)).Inherits p :=
  List.foldlRecOn l f (motive := fun s => (caps s).Inherits p) hs fun s hs a ha => h s a ha hs

/-- What the clauses of a root say is owed to it. -/
theorem owed_clause (h : c.Inherits p) (hm : m ∈ p.members) (hbase : p.base? m = none)
    (hq : m.decl.typeParams[index]? = some q) :
    p.Owed (Declarations.entered p).caps index m
      (Clause.capability ⟨p, c, m.decl.typeParams, m.outerScope⟩ q) := by
  have howned : m.outerScope.OwnedBy (· ∈ p.typeNames) :=
    GenericScope.OwnedBy.push (fun _ hf => absurd hf List.not_mem_nil)
      (Surroundings.typeName_mem hm) _
  rw [← h.types.capability_eq howned]
  exact .root (.root hbase hq)

end Capabilities.Inherits

/-! ## On the way to the root -/

/-- What is found on the way to the root is owed to the member and to all on the way. The members met
before, which are no longer pending, lead to the member, so that one of them can be met again only on a
circle. -/
theorem Program.owed_inherited {p : Program} {c : Capabilities} (hc : c.Inherits p)
    (hp : p.DistinctDeclarations) (index : Nat) (pending : List String) (m : Member)
    (hm : m ∈ p.members)
    (hmet : ∀ n ∈ p.members, n.key ∉ pending → Relation.TransGen p.Refines n m) :
    p.Owed (Declarations.entered p).caps index m (p.inherited c index pending m).1 ∧
      ∀ k ∈ (p.inherited c index pending m).2, ∃ n ∈ p.members, ∃ q,
        n.decl.typeParams[index]? = some q ∧ k = ⟨n.key, q.name⟩ ∧
          p.Owed (Declarations.entered p).caps index n (p.inherited c index pending m).1 := by
  fun_induction p.inherited c index pending m with
  | case1 pending m hq =>
    refine ⟨.unknown fun root r h => ?_, fun k hk => absurd hk List.not_mem_nil⟩
    exact absurd h.isSome (by simp [hq])
  | case2 pending m q hq v hv =>
    exact ⟨hc.members m hm index q v hq hv, fun k hk => absurd hk List.not_mem_nil⟩
  | case3 pending m q hq hnone hmem base hbase v keys hrest ih =>
    have hfound : base ∈ p.members := mem_members_of_refines hbase
    have hmet' : ∀ n ∈ p.members, n.key ∉ without pending m.key →
        Relation.TransGen p.Refines n base := by
      intro n hn hkey
      by_cases heq : n.key = m.key
      · exact .single (hp.member_eq hn hm heq ▸ hbase)
      · exact (hmet n hn fun h => hkey (mem_without.2 ⟨h, heq⟩)).tail hbase
    obtain ⟨howed, hkeys⟩ := ih hfound hmet'
    rw [hrest] at howed hkeys
    have hown : p.Owed (Declarations.entered p).caps index m v :=
      howed.of_refines hbase (by rw [hq]; rfl)
    refine ⟨hown, fun k hk => ?_⟩
    rcases List.mem_cons.1 hk with rfl | hk
    · exact ⟨m, hm, q, hq, rfl, hown⟩
    · exact hkeys k hk
  | case4 pending m q hq hnone hmem hbase =>
    have hown := hc.owed_clause hm hbase hq
    refine ⟨hown, fun k hk => ?_⟩
    obtain rfl := List.mem_singleton.1 hk
    exact ⟨m, hm, q, hq, rfl, hown⟩
  | case5 pending m q hq hnone hmem =>
    refine ⟨.unknown fun root r h => ?_, fun k hk => absurd hk List.not_mem_nil⟩
    exact h.not_circular .refl (hmet m hm hmem)

/-! ## Filing -/

namespace Capabilities.Inherits

variable {p : Program} {c : Capabilities} {m : Member}

/-- What is found on the way to the root may be filed for all on the way. -/
theorem fillInherited (h : c.Inherits p) (hp : p.DistinctDeclarations) (hm : m ∈ p.members)
    (index : Nat) : Inherits p (c.fillInherited p m index) := by
  have hmet : ∀ n ∈ p.members, n.key ∉ p.memberKeys → Relation.TransGen p.Refines n m :=
    fun n hn hkey => absurd (List.mem_map_of_mem hn) hkey
  obtain ⟨_, hkeys⟩ := Program.owed_inherited h hp index p.memberKeys m hm hmet
  refine foldl id (fun c k hk hc => ?_) h
  obtain ⟨n, hn, q, hq, rfl, howed⟩ := hkeys k hk
  exact hc.keep hp hn hq howed

/-- What the clauses of a root say may be filed for it. -/
theorem fillOwn (h : c.Inherits p) (hp : p.DistinctDeclarations) (hm : m ∈ p.members)
    (hbase : p.base? m = none) : Inherits p (c.fillOwn p m.key m.decl.typeParams m.outerScope) := by
  refine foldl id (fun c q hq hc => ?_) h
  obtain ⟨index, hindex⟩ := List.mem_iff_getElem?.1 hq
  exact Inherits.keep hc hp hm hindex (Inherits.owed_clause hc hm hbase hindex)

/-- Filing for a member keeps the table right. -/
theorem fillMember (h : c.Inherits p) (hp : p.DistinctDeclarations) (hm : m ∈ p.members) :
    Inherits p (Declarations.fillMember p c m) := by
  unfold Declarations.fillMember
  split
  · exact foldl id (fun _ index _ hc => Inherits.fillInherited hc hp hm index) h
  · next hbase => exact h.fillOwn hp hm (Option.not_isSome_iff_eq_none.1 hbase)

end Capabilities.Inherits

namespace Declarations

variable {p : Program}

/-- Checking a type part keeps the table right. -/
theorem inherits_checkPart (hp : p.DistinctDeclarations) (runtime : Bool) {s : State}
    (h : s.caps.Inherits p) (i : Nat) {t : TypeDecl} (ht : t ∈ p.types) :
    (checkPart p runtime s i t).caps.Inherits p := by
  rw [checkPart_eq]
  refine Capabilities.Inherits.foldl State.caps (fun s x hx hs => ?_) ?_
  · have hm : (⟨t, x.1⟩ : Member) ∈ p.members :=
      Program.mem_members_iff.2 ⟨ht, List.fst_mem_of_mem_zipIdx hx⟩
    exact hs.fillMember hp hm
  · change (t.typeParams.foldl (checkTypeClause runtime t.name) s).caps.Inherits p
    rw [caps_foldl_checkTypeClause]
    exact h

/-- Once all types are entered, capabilities are filed for types only. -/
theorem ownedBy_entered (p : Program) : (entered p).caps.OwnedBy (· ∈ p.typeNames) := by
  have hnone : Capabilities.OwnedBy (· ∈ p.typeNames) .empty := fun k v h => by simp at h
  exact Capabilities.ownedBy_foldl State.caps (fun s t ht hs => hs.fillOwn
    (List.mem_map_of_mem (firstParts_subset [] p.types ht)) _ _) hnone

/-- Once all types are entered, nothing is filed of members. -/
theorem inherits_entered (hp : p.DistinctDeclarations) : (entered p).caps.Inherits p where
  types := .refl _ _
  members _ hm _ _ _ _ hv := absurd (ownedBy_entered p _ _ hv) (hp.key_not_mem_typeNames hm)
  others k hk _ := Option.eq_none_iff_forall_ne_some.2 fun v hv => hk (ownedBy_entered p k v hv)

/-- The table at the end is right. -/
theorem inherits_finished (hp : p.DistinctDeclarations) (runtime : Bool) :
    (finished p runtime).caps.Inherits p :=
  Capabilities.Inherits.foldl State.caps (fun _ x hx hs =>
    inherits_checkPart hp runtime hs x.2 (List.fst_mem_of_mem_zipIdx hx)) (inherits_entered hp)

end Declarations

namespace Program

variable {p : Program} {m : Member} {index : Nat} {q : TypeParam}

/-- What is filed at the end for a type parameter of a member is owed to it. -/
theorem exists_owed (hp : p.DistinctDeclarations) (runtime : Bool) (hm : m ∈ p.members)
    (hq : m.decl.typeParams[index]? = some q) : ∃ v,
      (p.checkDeclarations runtime .empty).1.get? ⟨m.key, q.name⟩ = some v ∧
        p.Owed (p.checkDeclarations runtime .empty).1 index m v := by
  obtain ⟨ht, hd⟩ := mem_members_iff.1 hm
  have hfinished := Declarations.inherits_finished hp runtime
  obtain ⟨v, hv⟩ := Option.isSome_iff_exists.1
    (isSome_of_memberParam runtime ht hd (List.mem_of_getElem? hq))
  refine ⟨v, hv, ?_⟩
  exact (hfinished.members m hm index q v hq hv).of_agree hfinished.types hm

/-- **Inherited capabilities.** After the check of declarations, whatever the order of types and members
is, the capability that is filed for a type parameter of a member is what the clause at the end of its
chain says, in the scope of the type part that declares the root. If the chain runs into a circle, or
has a member with fewer type parameters, nothing is known.

**Proof sketch.** Nothing but what is owed is ever filed. The way from a member ends at what is filed
already, at a root, at a member with fewer type parameters, or at a member met before, which is then on
a circle; in each case what is found there is owed to all on the way. Clauses of members look at the
type parameters of types only, which are filed before. -/
theorem inherited_from_root (hp : p.DistinctDeclarations) (runtime : Bool) (hm : m ∈ p.members)
    (hq : m.decl.typeParams[index]? = some q) :
    let caps := (p.checkDeclarations runtime .empty).1
    (∀ root r, p.TakesOver index m root r → caps.get? ⟨m.key, q.name⟩ =
      some (Clause.capability ⟨p, caps, root.decl.typeParams, root.outerScope⟩ r)) ∧
    (∀ n, Relation.ReflTransGen p.Refines m n → Relation.TransGen p.Refines n n →
      caps.get? ⟨m.key, q.name⟩ = some .unknown) ∧
    ((∀ root r, ¬ p.TakesOver index m root r) → caps.get? ⟨m.key, q.name⟩ = some .unknown) := by
  intro caps
  obtain ⟨v, hv, howed⟩ := exists_owed hp runtime hm hq
  have hunknown (hnone : ∀ root r, ¬ p.TakesOver index m root r) :
      caps.get? ⟨m.key, q.name⟩ = some .unknown := by
    cases howed with
    | root h => exact absurd h (hnone _ _)
    | unknown => exact hv
  refine ⟨fun root r h => ?_, fun n hn hcircle => ?_, hunknown⟩
  · cases howed with
    | root h' =>
      obtain ⟨rfl, rfl⟩ := h.unique h'
      exact hv
    | unknown hnone => exact absurd h (hnone _ _)
  · exact hunknown fun root r h => h.not_circular hn hcircle

end Program

/-! ## A chain of two -/

namespace Ladders

/-- A method with a type parameter that may override another one. -/
def climb (id : NodeId) (q : TypeParam) (overrides : Option MemberRef) : FnDecl :=
  ⟨id, "Climb", .method, default, [q], [], .nothing, [], none, overrides, none, .zero⟩

/-- A class with the method. -/
def ladder (id : NodeId) (name : String) (decl : FnDecl) : TypeDecl :=
  ⟨id, name, .classType, false, false, [], [], [], [], [decl], .zero⟩

/-- The root, for steps of any type. -/
def lower : Member :=
  let decl := climb 4 ⟨"T", [⟨.allowsRefStruct, .zero⟩], .zero⟩ none
  ⟨ladder 3 "Lower" decl, decl⟩

/-- What overrides it, with another name for the type of steps. -/
def upper : Member :=
  let decl := climb 2 ⟨"U", [], .zero⟩ (some ⟨.named "Lower" [], "Climb"⟩)
  ⟨ladder 1 "Upper" decl, decl⟩

/-- The class that overrides comes first. -/
def program : Program := ⟨[upper.owner, lower.owner]⟩

/-- The steps of the upper ladder may be of any type, as those of the lower one. -/
theorem inherited_from_root_upper :
    program.DistinctDeclarations ∧ upper ∈ program.members ∧
      upper.decl.typeParams[0]? = some ⟨"U", [], .zero⟩ ∧
      program.TakesOver 0 upper lower ⟨"T", [⟨.allowsRefStruct, .zero⟩], .zero⟩ ∧
      ((program.checkDeclarations true .empty).1.get? ⟨"Upper.Climb", "U"⟩).map
        Capability.allowsByRefLike = some true := by
  have hp : program.DistinctDeclarations := by decide +kernel
  have hm : upper ∈ program.members := List.mem_cons_self ..
  have hupper : program.base? upper = some lower := by cbv
  have hlower : program.base? lower = none := rfl
  have hchain : program.TakesOver 0 upper lower ⟨"T", [⟨.allowsRefStruct, .zero⟩], .zero⟩ :=
    .link hupper rfl (.root hlower rfl)
  obtain ⟨hroot, _⟩ := Program.inherited_from_root hp true hm
    (rfl : upper.decl.typeParams[0]? = some ⟨"U", [], .zero⟩)
  refine ⟨hp, hm, rfl, hchain, ?_⟩
  have hstored : (program.checkDeclarations true .empty).1.get? ⟨"Upper.Climb", "U"⟩ = _ :=
    hroot lower _ hchain
  rw [hstored, Option.map_some]
  rfl

end Ladders

end StackEscape
