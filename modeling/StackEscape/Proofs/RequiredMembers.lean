import StackEscape.Declarations.Pass
import StackEscape.Proofs.InterfaceSearch

/-!
# What interfaces require, once each

Two parts of a program may be written alike, and so may two members, but each stands in a place of its
own. The members that an interface requires are listed by their places: each member that is declared by an
interface part of what the bases lead to, and none of them twice, however many ways of bases lead there.

## Main definitions

* `StackEscape.Program.memberAt?` — the member in a place.
* `StackEscape.Program.placesAt` — the places of the members that a part declares.

## Main results

* `StackEscape.Program.membersAt_eq` — the members of a part are those in its places.
* `StackEscape.Program.interfaceMembers_places` — what an interface requires, place by place.
-/

set_option autoImplicit false

namespace StackEscape

namespace Program

variable {p : Program} {m : Member} {x y : InterfaceNode} {place : Place}

/-- The member in a place. -/
def memberAt? (p : Program) (place : Place) : Option Member :=
  p.types[place.1]?.bind fun t => t.members[place.2]?.map fun m => ⟨t, m⟩

/-- In a place is the member of that position in the part of that position. -/
theorem memberAt?_eq_some_iff : p.memberAt? place = some m ↔
    p.types[place.1]? = some m.owner ∧ m.owner.members[place.2]? = some m.decl := by
  obtain ⟨t, d⟩ := m
  simp only [memberAt?, Option.bind_eq_some_iff, Option.map_eq_some_iff, Member.mk.injEq]
  constructor
  · rintro ⟨_, hi, _, hj, rfl, rfl⟩
    exact ⟨hi, hj⟩
  · exact fun ⟨hi, hj⟩ => ⟨t, hi, d, hj, rfl, rfl⟩

/-- The places of the members that the part at a node declares. -/
def placesAt (p : Program) : InterfaceNode → List Place
  | .named _ => []
  | .part i => match p.types[i]? with
    | some t => t.members.zipIdx.map fun (_, j) => (i, j)
    | none => []

/-- A node has the places of its own part. -/
theorem mem_placesAt_iff : place ∈ p.placesAt x ↔
    x = .part place.1 ∧ ∃ m, p.memberAt? place = some m := by
  obtain ⟨i, j⟩ := place
  cases x with
  | named J => simp [placesAt]
  | part k =>
    simp only [placesAt, memberAt?, InterfaceNode.part.injEq]
    by_cases hk : k = i
    · subst hk
      cases p.types[k]? with
      | none => simp
      | some t => simp [List.mem_zipIdx_iff_getElem?]
    · cases p.types[k]? with
      | none => simp [hk]
      | some t => simp [hk]

/-- No place is listed twice for a node. -/
theorem nodup_placesAt (p : Program) (x : InterfaceNode) : (p.placesAt x).Nodup := by
  unfold placesAt
  split
  · exact List.nodup_nil
  · next i =>
    split
    · next t _ =>
      have hpositions : (t.members.zipIdx.map Prod.snd).Nodup := by
        rw [List.zipIdx_map_snd]
        exact List.nodup_range'
      have hplaces := hpositions.map (f := fun j => (i, j)) fun _ _ h => (Prod.mk.inj h).2
      rwa [List.map_map] at hplaces
    · exact List.nodup_nil

/-- The members of a part are those in its places. -/
theorem membersAt_eq (p : Program) (x : InterfaceNode) :
    p.membersAt x = (p.placesAt x).filterMap p.memberAt? := by
  cases x with
  | named J => rfl
  | part i =>
    cases hi : p.types[i]? with
    | none => simp [membersAt, placesAt, hi]
    | some t =>
      have hmember : ∀ y ∈ t.members.zipIdx, p.memberAt? (i, y.2) = some ⟨t, y.1⟩ := fun y hy =>
        memberAt?_eq_some_iff.2 ⟨hi, List.mem_zipIdx_iff_getElem?.1 hy⟩
      calc p.membersAt (.part i)
          = (t.members.zipIdx.map Prod.fst).map fun m => ⟨t, m⟩ := by
            rw [List.zipIdx_map_fst, membersAt, hi]
        _ = t.members.zipIdx.filterMap fun y => some ⟨t, y.1⟩ := by
            rw [List.map_map, ← List.filterMap_eq_map]
            rfl
        _ = (p.placesAt (.part i)).filterMap p.memberAt? := by
            rw [placesAt, hi, List.filterMap_map]
            exact (List.filterMap_congr hmember).symm

/-- Different nodes have different places. -/
theorem disjoint_placesAt (h : x ≠ y) : (p.placesAt x).Disjoint (p.placesAt y) :=
  fun _ hx hy => h ((mem_placesAt_iff.1 hx).1.trans (mem_placesAt_iff.1 hy).1.symm)

/-- **What an interface requires.** The recursion over the bases of an interface ends, whatever circles
and diamonds they form, and it lists the members in certain places. No place occurs twice among them, and
they are the places of all members that are declared by an interface part of what the bases lead to.

**Proof sketch.** The recursion enters each part once, and exactly the interface parts of names that the
bases lead to. The places of different parts are different, and so are those of one part. -/
theorem interfaceMembers_places (p : Program) (I : String) (args : List TypeRef) :
    (∃ walk rest, Descent p.interfaceSucc p.interfaceNodes [.named I] walk rest ∧
      p.interfaceMembers (.named I args) = walk.flatMap p.membersAt) ∧
    ∃ places : List Place, places.Nodup ∧
      p.interfaceMembers (.named I args) = places.filterMap p.memberAt? ∧
      ∀ place, place ∈ places ↔ ∃ m, p.memberAt? place = some m ∧ m.owner.kind = .interface ∧
        Relation.ReflTransGen p.Extends I m.owner.name := by
  let walk := preorder p.interfaceSucc p.interfaceNodes [.named I]
  obtain ⟨rest, hwalk⟩ := descent_preorder p.interfaceSucc p.interfaceNodes [.named I]
  have hmembers : p.interfaceMembers (.named I args) = walk.flatMap p.membersAt := rfl
  refine ⟨⟨walk, rest, hwalk, hmembers⟩, walk.flatMap p.placesAt, ?_, ?_, fun place => ?_⟩
  · exact List.nodup_flatMap.2 ⟨fun x _ => p.nodup_placesAt x,
      (nodup_preorder _ _ _).imp fun h => disjoint_placesAt h⟩
  · rw [hmembers, List.filterMap_flatMap]
    exact List.flatMap_congr fun x _ => p.membersAt_eq x
  · simp only [List.mem_flatMap, mem_placesAt_iff]
    constructor
    · rintro ⟨_, hmem, rfl, m, hm⟩
      obtain ⟨t, hi, hkind, hpath⟩ := part_mem_walk_iff.1 hmem
      obtain rfl : t = m.owner := Option.some.inj (hi.symm.trans (memberAt?_eq_some_iff.1 hm).1)
      exact ⟨m, hm, hkind, hpath⟩
    · rintro ⟨m, hm, hkind, hpath⟩
      have hpart : .part place.1 ∈ walk :=
        part_mem_walk_iff.2 ⟨m.owner, (memberAt?_eq_some_iff.1 hm).1, hkind, hpath⟩
      exact ⟨_, hpart, rfl, m, hm⟩

end Program

end StackEscape
