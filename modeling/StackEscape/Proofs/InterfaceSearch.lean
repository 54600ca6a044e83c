import StackEscape.Proofs.GraphRecursion
import StackEscape.Proofs.Reordering

/-!
# Members of interfaces

Two searches go over the base interfaces of an interface. One lists the members that an implementer has
to have, and follows the bases that any of its parts names. The other one looks a member up by its name,
and follows the bases that the first part names. Both go through circles and diamonds, and each finds
exactly what its own bases lead to. So what is listed is found as long as the first part of an interface
leads to the bases of its other parts, and a base that only a later part names is lost.

## Main definitions

* `StackEscape.Program.Extends` — an interface names another one as a base, in some part.
* `StackEscape.Program.SearchedAfter` — a member is looked up there next.
* `StackEscape.Program.LeadsToBases` — looking a member up gets to all bases of an interface.

## Main results

* `StackEscape.Program.mem_interfaceMembers_iff` — what an interface requires.
* `StackEscape.Program.isSome_findMember_iff` — where a member is found.
* `StackEscape.Program.leadsToBases_of_parts` — an interface of one part leads to its bases.
* `StackEscape.Program.required_members_found` — when a required member is found.
* `StackEscape.Docks.required_unfound` — a base that is named by the second part alone.
-/

set_option autoImplicit false

namespace StackEscape

namespace Program

variable {p : Program} {I J name : String} {m : Member}

/-! ## What an interface requires -/

/-- Some part of the first interface names the second one as a base. -/
def Extends (p : Program) (I J : String) : Prop :=
  ∃ t ∈ p.types, t.name = I ∧ t.kind = .interface ∧ J ∈ t.baseNames

/-- From a part the walk over interfaces goes to its bases. -/
theorem mem_interfaceSucc_part {i : Nat} {x : InterfaceNode} :
    x ∈ p.interfaceSucc (.part i) ↔
      ∃ t, p.types[i]? = some t ∧ ∃ J ∈ t.baseNames, x = .named J := by
  simp only [interfaceSucc, List.mem_map]
  cases p.types[i]? with
  | none => simp
  | some t => simp [eq_comm]

theorem named_mem_interfaceNodes : InterfaceNode.named J ∈ p.interfaceNodes ↔ J ∈ p.typeNames := by
  simp [interfaceNodes]

theorem part_mem_interfaceNodes {i : Nat} {t : TypeDecl} (h : p.types[i]? = some t) :
    InterfaceNode.part i ∈ p.interfaceNodes := by
  simpa [interfaceNodes] using (List.getElem?_eq_some_iff.1 h).1

theorem mem_typeNames_of_getElem? {i : Nat} {t : TypeDecl} (h : p.types[i]? = some t) :
    t.name ∈ p.typeNames := List.mem_map_of_mem (List.mem_of_getElem? h)

/-- What bases lead to: a name, or an interface part. -/
def Leads (p : Program) (I : String) : InterfaceNode → Prop
  | .named J => Relation.ReflTransGen p.Extends I J
  | .part i => ∃ t, p.types[i]? = some t ∧ t.kind = .interface ∧
      Relation.ReflTransGen p.Extends I t.name

/-- The walk over interfaces follows bases. -/
theorem leads_of_walk {x : InterfaceNode}
    (h : Relation.ReflTransGen (PendingStep p.interfaceSucc p.interfaceNodes) (.named I) x) :
    p.Leads I x := by
  induction h with
  | refl => exact .refl
  | @tail y z _ hstep ih =>
    cases y with
    | named J =>
      obtain ⟨t, i, hi, rfl, hkind, rfl⟩ := Reordered.part_mem_interfaceSucc.1 hstep.1
      exact ⟨t, hi, hkind, ih⟩
    | part i =>
      obtain ⟨t, hi, J, hJ, rfl⟩ := mem_interfaceSucc_part.1 hstep.1
      obtain ⟨u, hu, hkind, hpath⟩ := ih
      obtain rfl : u = t := Option.some.inj (hu.symm.trans hi)
      exact hpath.tail ⟨u, List.mem_of_getElem? hi, rfl, hkind, hJ⟩

/-- Bases that are declared are walked to. -/
theorem walk_of_extends (h : Relation.ReflTransGen p.Extends I J) (hJ : J ∈ p.typeNames) :
    Relation.ReflTransGen (PendingStep p.interfaceSucc p.interfaceNodes) (.named I) (.named J) := by
  induction h with
  | refl => exact .refl
  | tail _ hstep ih =>
    obtain ⟨t, ht, rfl, hkind, hbase⟩ := hstep
    obtain ⟨i, hi⟩ := List.mem_iff_getElem?.1 ht
    have hpart : PendingStep p.interfaceSucc p.interfaceNodes (.named t.name) (.part i) :=
      ⟨Reordered.part_mem_interfaceSucc.2 ⟨t, i, hi, rfl, hkind, rfl⟩, part_mem_interfaceNodes hi⟩
    exact ((ih (mem_typeNames_of_getElem? hi)).tail hpart).tail
      ⟨mem_interfaceSucc_part.2 ⟨t, hi, _, hbase, rfl⟩, named_mem_interfaceNodes.2 hJ⟩

/-- The walk over interfaces enters exactly the interface parts of what the bases lead to. -/
theorem part_mem_walk_iff {i : Nat} :
    .part i ∈ preorder p.interfaceSucc p.interfaceNodes [.named I] ↔ p.Leads I (.part i) := by
  simp only [mem_preorder_iff, List.mem_singleton, exists_eq_left]
  constructor
  · exact fun ⟨_, hwalk⟩ => leads_of_walk hwalk
  · rintro ⟨t, hi, hkind, hpath⟩
    have hname := mem_typeNames_of_getElem? hi
    have hfirst : I ∈ p.typeNames := by
      rcases Relation.ReflTransGen.cases_head hpath with rfl | ⟨_, ⟨u, hu, rfl, _⟩, _⟩
      · exact hname
      · exact List.mem_map_of_mem hu
    have hpart : PendingStep p.interfaceSucc p.interfaceNodes (.named t.name) (.part i) :=
      ⟨Reordered.part_mem_interfaceSucc.2 ⟨t, i, hi, rfl, hkind, rfl⟩, part_mem_interfaceNodes hi⟩
    exact ⟨named_mem_interfaceNodes.2 hfirst, (walk_of_extends hpath hname).tail hpart⟩

/-- An interface requires exactly the members that are declared by the interface parts of what its
bases lead to. -/
theorem mem_interfaceMembers_iff {ty : TypeRef} : m ∈ p.interfaceMembers ty ↔
    ∃ I, ty.declName = some I ∧ m ∈ p.members ∧ m.owner.kind = .interface ∧
      Relation.ReflTransGen p.Extends I m.owner.name := by
  unfold interfaceMembers
  cases ty.declName with
  | none => simp
  | some I =>
    simp only [List.mem_flatMap, Option.some.injEq, exists_eq_left']
    constructor
    · rintro ⟨x, hwalk, hm⟩
      cases x with
      | named J => simp [membersAt] at hm
      | part i =>
        obtain ⟨t, hi, hkind, hpath⟩ := part_mem_walk_iff.1 hwalk
        simp only [membersAt, hi, List.mem_map] at hm
        obtain ⟨d, hd, rfl⟩ := hm
        exact ⟨List.mem_flatMap.2 ⟨t, List.mem_of_getElem? hi, List.mem_map_of_mem hd⟩, hkind, hpath⟩
    · rintro ⟨hm, hkind, hpath⟩
      obtain ⟨t, ht, hm⟩ := List.mem_flatMap.1 hm
      obtain ⟨d, hd, rfl⟩ := List.mem_map.1 hm
      obtain ⟨i, hi⟩ := List.mem_iff_getElem?.1 ht
      refine ⟨.part i, part_mem_walk_iff.2 ⟨t, hi, hkind, hpath⟩, ?_⟩
      simp only [membersAt, hi]
      exact List.mem_map_of_mem hd

/-! ## Where a member is found -/

/-- A member that the first type does not declare is looked up on the second one: its first part is an
interface and names it as a base. -/
def SearchedAfter (p : Program) (I J : String) : Prop := J ∈ p.searchedBases I

/-- What is searched is declared. -/
theorem mem_typeNames_of_searchedAfter (h : p.SearchedAfter I J) : I ∈ p.typeNames := by
  unfold SearchedAfter searchedBases at h
  cases hfirst : p.typeDecl? I with
  | none => simp [hfirst] at h
  | some t =>
    have hname : t.name = I := by simpa using List.find?_some hfirst
    exact hname ▸ List.mem_map_of_mem (List.mem_of_find?_eq_some hfirst)

/-- A type is searched for the members of another one if it is declared and searched after it, however
indirectly. -/
theorem mem_searchOrder_iff : J ∈ p.searchOrder I ↔
    J ∈ p.typeNames ∧ Relation.ReflTransGen p.SearchedAfter I J := by
  simp only [searchOrder, mem_preorder_iff, List.mem_singleton, exists_eq_left]
  constructor
  · rintro ⟨hI, hpath⟩
    refine ⟨?_, Relation.ReflTransGen.mono (fun _ _ hstep => hstep.1) _ _ hpath⟩
    rcases Relation.ReflTransGen.cases_tail hpath with rfl | ⟨_, _, hstep⟩
    · exact hI
    · exact hstep.2
  · rintro ⟨hJ, hpath⟩
    induction hpath with
    | refl => exact ⟨hJ, .refl⟩
    | tail _ hstep ih =>
      obtain ⟨hI, hpath⟩ := ih (mem_typeNames_of_searchedAfter hstep)
      exact ⟨hI, hpath.tail ⟨hstep, hJ⟩⟩

/-- A member is declared under a name exactly if some part of the type has one of the name. -/
theorem isSome_declared?_iff : (p.declared? J name).isSome ↔
    ∃ n ∈ p.members, n.owner.name = J ∧ n.decl.name = name := by
  simp only [declared?, List.isSome_findSome?, List.any_eq_true, Option.isSome_map,
    List.find?_isSome, decide_eq_true_eq, parts, List.mem_filter, members, List.mem_flatMap,
    List.mem_map]
  constructor
  · rintro ⟨t, ⟨ht, hname⟩, d, hd, hdname⟩
    exact ⟨⟨t, d⟩, ⟨t, ht, d, hd, rfl⟩, hname, hdname⟩
  · rintro ⟨_, ⟨t, ht, d, hd, rfl⟩, hname, hdname⟩
    exact ⟨t, ⟨ht, hname⟩, d, hd, hdname⟩

/-- A member of a name is found exactly if some type that is searched declares one. -/
theorem isSome_findMember_iff : (p.findMember I name).isSome ↔
    ∃ n ∈ p.members, n.decl.name = name ∧
      Relation.ReflTransGen p.SearchedAfter I n.owner.name := by
  simp only [findMember, List.isSome_findSome?, List.any_eq_true, isSome_declared?_iff,
    mem_searchOrder_iff]
  constructor
  · rintro ⟨_, ⟨-, hpath⟩, n, hn, rfl, hname⟩
    exact ⟨n, hn, hname, hpath⟩
  · rintro ⟨n, hn, hname, hpath⟩
    obtain ⟨t, ht, hmem⟩ := List.mem_flatMap.1 hn
    obtain ⟨d, hd, rfl⟩ := List.mem_map.1 hmem
    exact ⟨t.name, ⟨List.mem_map_of_mem ht, hpath⟩, _, hn, rfl, hname⟩

/-! ## Required members that are found -/

/-- Looking a member up on the interface gets to every base that any part of it names. -/
def LeadsToBases (p : Program) (I : String) : Prop :=
  ∀ J, p.Extends I J → Relation.ReflTransGen p.SearchedAfter I J

/-- An interface of one part leads to its bases. -/
theorem leadsToBases_of_parts {t : TypeDecl} (h : p.parts I = [t]) : p.LeadsToBases I := by
  rintro J ⟨u, hu, hname, hkind, hbase⟩
  have hmem : u ∈ p.parts I := List.mem_filter.2 ⟨hu, by simpa using hname⟩
  obtain rfl : u = t := by simpa [h] using hmem
  have hfirst : p.typeDecl? I = some u := by
    rw [typeDecl?, ← List.head?_filter]
    exact congrArg List.head? h
  refine .single ?_
  simpa [SearchedAfter, searchedBases, hfirst, hkind] using hbase

/-- **Required members.** A member that an interface requires can be called through the interface exactly
if looking it up comes to some type that declares a member of its name. If each interface on the way
leads to its bases, as those of one part do, then every required member is found, through circles and
diamonds.

**Proof sketch.** Both searches enter what can be reached, each by its own steps. A step from an
interface to a base is a way of the other search, so a way to the required member is one as well. -/
theorem required_members_found {ty : TypeRef} (hm : m ∈ p.interfaceMembers ty) :
    ((p.member? ⟨ty, m.decl.name⟩).isSome ↔ ∃ I, ty.declName = some I ∧ ∃ n ∈ p.members,
      n.decl.name = m.decl.name ∧ Relation.ReflTransGen p.SearchedAfter I n.owner.name) ∧
    ((∀ I J, ty.declName = some I → Relation.ReflTransGen p.Extends I J → p.LeadsToBases J) →
      (p.member? ⟨ty, m.decl.name⟩).isSome) := by
  have hiff : (p.member? ⟨ty, m.decl.name⟩).isSome ↔ ∃ I, ty.declName = some I ∧ ∃ n ∈ p.members,
      n.decl.name = m.decl.name ∧ Relation.ReflTransGen p.SearchedAfter I n.owner.name := by
    unfold member?
    cases ty.declName with
    | none => simp
    | some I => simp [isSome_findMember_iff]
  refine ⟨hiff, fun hlead => hiff.2 ?_⟩
  obtain ⟨I, hI, hmem, -, hpath⟩ := mem_interfaceMembers_iff.1 hm
  refine ⟨I, hI, m, hmem, rfl, ?_⟩
  have hway {J : String} (hJ : Relation.ReflTransGen p.Extends I J) :
      Relation.ReflTransGen p.SearchedAfter I J := by
    induction hJ with
    | refl => exact .refl
    | tail hJ hstep ih => exact ih.trans (hlead I _ hI hJ _ hstep)
  exact hway hpath

end Program

/-! ## An interface of two parts -/

namespace Docks

/-- A method of an interface. -/
def method (id : NodeId) (name : String) : FnDecl :=
  ⟨id, name, .method, default, [], [], .nothing, [], none, none, none, .zero⟩

/-- A part of an interface. -/
def part (id : NodeId) (name : String) (bases : List TypeRef) (members : List FnDecl) : TypeDecl :=
  ⟨id, name, .interface, false, true, [], bases, [], [], members, .zero⟩

/-- The type of docks. -/
def dockTy : TypeRef := .named "IDock" []

/-- What ships are tied to; every such thing is a dock again. -/
def bollard : TypeDecl := part 1 "IBollard" [dockTy] [method 2 "Tie"]

/-- The part of docks that names no base. -/
def plain : TypeDecl := part 3 "IDock" [] [method 4 "Load"]

/-- The part of docks that names a base. -/
def based : TypeDecl := part 5 "IDock" [.named "IBollard" []] []

/-- What is required of a dock. -/
def tie : Member := ⟨bollard, method 2 "Tie"⟩

/-- If the second part of an interface names a base, then the members of the base are required, but
they are not found. -/
theorem required_unfound :
    let p : Program := ⟨[bollard, plain, based]⟩
    tie ∈ p.interfaceMembers dockTy ∧ p.member? ⟨dockTy, tie.decl.name⟩ = none := by
  intro p
  have hlisted : p.interfaceMembers dockTy = [⟨plain, method 4 "Load"⟩, tie] := by cbv
  exact ⟨hlisted ▸ List.mem_cons_of_mem _ (List.mem_cons_self ..), by cbv⟩

/-- If the first part names it, they are found, although the bases form a circle. -/
theorem required_members_found_tie :
    let p : Program := ⟨[bollard, based, plain]⟩
    tie ∈ p.interfaceMembers dockTy ∧
      (∀ I J, dockTy.declName = some I → Relation.ReflTransGen p.Extends I J → p.LeadsToBases J) ∧
      (p.member? ⟨dockTy, tie.decl.name⟩).isSome := by
  intro p
  have hlisted : p.interfaceMembers dockTy = [tie, ⟨plain, method 4 "Load"⟩] := by cbv
  have hm : tie ∈ p.interfaceMembers dockTy := hlisted ▸ List.mem_cons_self ..
  have hlead (J : String) : p.LeadsToBases J := by
    rintro K ⟨t, ht, rfl, -, hbase⟩
    simp only [p, List.mem_cons, List.not_mem_nil, or_false] at ht
    rcases ht with rfl | rfl | rfl
    · exact .single hbase
    · exact .single hbase
    · exact absurd hbase List.not_mem_nil
  have hall : ∀ I J, dockTy.declName = some I → Relation.ReflTransGen p.Extends I J →
      p.LeadsToBases J := fun _ J _ _ => hlead J
  exact ⟨hm, hall, (Program.required_members_found hm).2 hall⟩

end Docks

end StackEscape
