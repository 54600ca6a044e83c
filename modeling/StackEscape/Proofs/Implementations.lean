import StackEscape.Proofs.InterfaceSearch
import StackEscape.Proofs.ReorderedDeclarations

/-!
# Implementations of interfaces

A member that implements an interface member has to repeat its `UnscopedRef`. A type part is compared
with every member that its interfaces require, and what is reported is always a real disagreement. But
comparisons are told apart by the keys of the two members, and only the first of one pair of keys is
made: overloads share a key, and so do explicit implementations for several instantiations of an
interface. A disagreement is reported if no earlier comparison has its keys, so all of them are in
programs that declare each member once.

## Main definitions

* `StackEscape.Comparison` — a type part, a member it has to implement, and what implements it.
* `StackEscape.Program.Compares` — the comparisons that an interface asks for.
* `StackEscape.Program.comparisons` — the same in the order in which they are made.
* `StackEscape.Program.ComparedByKeys` — keys tell comparisons apart.

## Main results

* `StackEscape.Program.mem_comparisons_iff` — all comparisons are listed.
* `StackEscape.Program.implementationErrors_eq_firsts` — the first comparison of each pair of keys is
  made.
* `StackEscape.Program.comparedByKeys_of_distinct` — members that are declared once have their own keys.
* `StackEscape.Program.mismatches_reported` — which disagreements are reported.
* `StackEscape.Gates.overload_unreported` — the second overload is not compared.
-/

set_option autoImplicit false

namespace StackEscape

/-! ## Comparisons -/

/-- A type part, a member that one of its interfaces requires, and the member that implements it. -/
structure Comparison where
  /-- The type part. -/
  part : TypeDecl
  /-- The member that is required. -/
  required : Member
  /-- The member that implements it. -/
  found : Member

namespace Comparison

/-- The keys by which comparisons are told apart. -/
def keys (c : Comparison) : String × String := (c.found.key, c.required.key)

/-- Do the members differ: on the annotation of a parameter that both have or, in a struct, of the
member itself? -/
def Differs (c : Comparison) : Prop :=
  (∃ x ∈ c.found.decl.params.zip c.required.decl.params, x.1.isUnscoped ≠ x.2.isUnscoped) ∨
    (c.part.kind.isStructLike = true ∧ c.found.decl.isUnscoped ≠ c.required.decl.isUnscoped)

/-- The error that says so, at the member that implements the other one. -/
def error (c : Comparison) : EscapeError :=
  ⟨.unscopedMismatch c.found.key c.required.key, c.found.decl.span⟩

theorem disagrees_iff {c : Comparison} :
    disagrees c.part c.found c.required = true ↔ c.Differs := by
  simp [disagrees, paramsDiffer, Differs, or_comm]

/-- The first comparisons of each pair of keys, without those of some pairs. -/
def firsts : List (String × String) → List Comparison → List Comparison
  | _, [] => []
  | seen, c :: cs => if c.keys ∈ seen then firsts seen cs else c :: firsts (c.keys :: seen) cs

/-- A comparison stays if no other one before it has its keys. -/
theorem mem_firsts_iff {seen : List (String × String)} {cs : List Comparison} {c : Comparison} :
    c ∈ firsts seen cs ↔ c.keys ∉ seen ∧
      ∃ before after, cs = before ++ c :: after ∧ ∀ b ∈ before, b.keys ≠ c.keys := by
  induction cs generalizing seen with
  | nil => simp [firsts]
  | cons d cs ih =>
    have hcons : (∃ before after, d :: cs = before ++ c :: after ∧ ∀ b ∈ before, b.keys ≠ c.keys) ↔
        d = c ∨ d.keys ≠ c.keys ∧
          ∃ before after, cs = before ++ c :: after ∧ ∀ b ∈ before, b.keys ≠ c.keys := by
      constructor
      · rintro ⟨_ | ⟨b, before⟩, after, hsplit, hall⟩
        · exact .inl (List.cons.inj hsplit).1
        · obtain ⟨rfl, rfl⟩ := List.cons.inj hsplit
          exact .inr ⟨hall _ (List.mem_cons_self ..), before, after, rfl,
            fun b hb => hall b (List.mem_cons_of_mem _ hb)⟩
      · rintro (rfl | ⟨hd, before, after, rfl, hall⟩)
        · exact ⟨[], cs, rfl, fun _ hb => absurd hb List.not_mem_nil⟩
        · exact ⟨d :: before, after, rfl, List.forall_mem_cons.2 ⟨hd, hall⟩⟩
    rw [hcons, firsts]
    split
    · next hd =>
      rw [ih]
      constructor
      · rintro ⟨hc, hrest⟩
        exact ⟨hc, .inr ⟨fun heq => hc (heq ▸ hd), hrest⟩⟩
      · rintro ⟨hc, rfl | ⟨-, hrest⟩⟩
        · exact absurd hd hc
        · exact ⟨hc, hrest⟩
    · next hd =>
      rw [List.mem_cons, ih, List.mem_cons, not_or]
      constructor
      · rintro (rfl | ⟨⟨hne, hc⟩, hrest⟩)
        · exact ⟨hd, .inl rfl⟩
        · exact ⟨hc, .inr ⟨Ne.symm hne, hrest⟩⟩
      · rintro ⟨hc, rfl | ⟨hne, hrest⟩⟩
        · exact .inl rfl
        · exact .inr ⟨⟨Ne.symm hne, hc⟩, hrest⟩

/-- The comparisons at which members differ, as errors. -/
def errors (cs : List Comparison) : List EscapeError :=
  (cs.filter fun c => disagrees c.part c.found c.required).map error

theorem mem_errors_iff {cs : List Comparison} {e : EscapeError} :
    e ∈ errors cs ↔ ∃ c ∈ cs, c.Differs ∧ e = c.error := by
  simp only [errors, List.mem_map, List.mem_filter, disagrees_iff, and_assoc, eq_comm (a := e)]

end Comparison

namespace Program

variable {p : Program} {t : TypeDecl} {c : Comparison}

/-- The comparisons that an interface of a type part asks for. -/
structure Compares (p : Program) (c : Comparison) : Prop where
  /-- The part is declared. -/
  declared : c.part ∈ p.types
  /-- Interfaces implement nothing. -/
  implements : c.part.kind ≠ .interface
  /-- An interface of the part requires the member, be it through its bases. -/
  requires : ∃ ty ∈ c.part.interfaces, c.required ∈ p.interfaceMembers ty
  /-- Static members are not implemented. -/
  instanceMember : c.required.decl.modifiers.isStatic = false
  /-- The other member implements it. -/
  implemented : p.implementing? c.part.name c.required = some c.found

/-- The comparisons of a type part for some required members, in order. -/
def comparisonsOf (p : Program) (t : TypeDecl) (required : List Member) : List Comparison :=
  required.filterMap fun r => (p.implementing? t.name r).map fun found => ⟨t, r, found⟩

/-- All comparisons in order. -/
def comparisons (p : Program) : List Comparison :=
  p.types.flatMap fun t => p.comparisonsOf t (p.requiredMembers t)

theorem mem_requiredMembers_iff {m : Member} : m ∈ p.requiredMembers t ↔ t.kind ≠ .interface ∧
    (∃ ty ∈ t.interfaces, m ∈ p.interfaceMembers ty) ∧ m.decl.modifiers.isStatic = false := by
  unfold requiredMembers
  split <;> simp_all

/-- Every comparison that is asked for is listed. -/
theorem mem_comparisons_iff : c ∈ p.comparisons ↔ p.Compares c := by
  simp only [comparisons, comparisonsOf, List.mem_flatMap, List.mem_filterMap,
    mem_requiredMembers_iff, Option.map_eq_some_iff]
  constructor
  · rintro ⟨t, ht, r, ⟨hkind, hreq, hstatic⟩, found, hfound, rfl⟩
    exact ⟨ht, hkind, hreq, hstatic, hfound⟩
  · rintro ⟨ht, hkind, hreq, hstatic, hfound⟩
    exact ⟨c.part, ht, c.required, ⟨hkind, hreq, hstatic⟩, c.found, hfound, rfl⟩

/-! ## The comparisons that are made -/

/-- What is known after a comparison. -/
def compare (s : ImplementationState) (c : Comparison) : ImplementationState :=
  if c.keys ∈ s.seen then s
  else ⟨c.keys :: s.seen, s.errors ++ Comparison.errors [c]⟩

/-- A comparison finds what the two members differ in, if its keys are new. -/
theorem errors_foldl_compare (s : ImplementationState) (cs : List Comparison) :
    (cs.foldl compare s).errors =
      s.errors ++ Comparison.errors (Comparison.firsts s.seen cs) := by
  induction cs generalizing s with
  | nil => simp [Comparison.firsts, Comparison.errors]
  | cons c cs ih =>
    rw [List.foldl_cons, ih, compare, Comparison.firsts]
    split
    · rfl
    · simp only [Comparison.errors, List.filter_cons, List.filter_nil]
      split <;> simp

/-- A member that is implemented is compared. -/
theorem checkImplementation_eq_compare {required found : Member}
    (h : p.implementing? t.name required = some found) (s : ImplementationState) :
    p.checkImplementation t s required = compare s ⟨t, required, found⟩ := by
  by_cases hseen : (⟨t, required, found⟩ : Comparison).keys ∈ s.seen
  · rw [compare, if_pos hseen]
    simp only [checkImplementation, h, List.contains_iff_mem]
    exact if_pos hseen
  · rw [compare, if_neg hseen]
    simp only [checkImplementation, h, List.contains_iff_mem]
    refine (if_neg hseen).trans ?_
    simp only [Comparison.errors, List.filter_cons, List.filter_nil]
    split <;> simp [Comparison.error, Comparison.keys]

/-- The members that a type part has to implement are compared in order. -/
theorem foldl_checkImplementation_eq (required : List Member) (s : ImplementationState) :
    required.foldl (p.checkImplementation t) s = (p.comparisonsOf t required).foldl compare s := by
  induction required generalizing s with
  | nil => rfl
  | cons r rest ih =>
    rw [List.foldl_cons, ih, comparisonsOf, comparisonsOf, List.filterMap_cons]
    cases hfound : p.implementing? t.name r with
    | none => simp only [checkImplementation, hfound, Option.map_none]
    | some found =>
      rw [checkImplementation_eq_compare hfound]
      rfl

/-- The comparisons that are made are the first ones of each pair of keys. -/
theorem implementationErrors_eq_firsts :
    p.implementationErrors = Comparison.errors (Comparison.firsts [] p.comparisons) := by
  have hfold (ts : List TypeDecl) (s : ImplementationState) :
      ts.foldl (fun s t => (p.requiredMembers t).foldl (p.checkImplementation t) s) s =
        (ts.flatMap fun t => p.comparisonsOf t (p.requiredMembers t)).foldl compare s := by
    induction ts generalizing s with
    | nil => rfl
    | cons t ts ih =>
      rw [List.foldl_cons, ih, foldl_checkImplementation_eq, List.flatMap_cons, List.foldl_append]
  rw [implementationErrors, hfold, errors_foldl_compare]
  rfl

/-! ## Disagreements that are reported -/

/-- Comparisons that share their keys come out the same, at the same place. -/
def ComparedByKeys (p : Program) : Prop :=
  ∀ c d, p.Compares c → p.Compares d → c.keys = d.keys →
    (c.Differs ↔ d.Differs) ∧ c.found.decl.span = d.found.decl.span

/-- In a program that declares each member once, and whose types are structs in all parts or in none,
keys tell comparisons apart. -/
theorem comparedByKeys_of_distinct (hp : p.DistinctDeclarations)
    (hkinds : ∀ t ∈ p.types, ∀ u ∈ p.types, t.name = u.name →
      t.kind.isStructLike = u.kind.isStructLike) : p.ComparedByKeys := by
  intro c d hc hd hkeys
  obtain ⟨hfound, hrequired⟩ := Prod.mk.inj hkeys
  obtain ⟨hcmem, hcname⟩ := mem_members_of_implementing? hc.implemented
  obtain ⟨hdmem, hdname⟩ := mem_members_of_implementing? hd.implemented
  have hfound := hp.member_eq hcmem hdmem hfound
  have hrequired : c.required = d.required := by
    obtain ⟨_, -, hcreq⟩ := hc.requires
    obtain ⟨_, -, hdreq⟩ := hd.requires
    obtain ⟨-, -, hcreq, -⟩ := mem_interfaceMembers_iff.1 hcreq
    obtain ⟨-, -, hdreq, -⟩ := mem_interfaceMembers_iff.1 hdreq
    exact hp.member_eq hcreq hdreq hrequired
  have hname : c.part.name = d.part.name := by rw [← hcname, ← hdname, hfound]
  have hkind := hkinds _ hc.declared _ hd.declared hname
  exact ⟨by rw [Comparison.Differs, Comparison.Differs, hfound, hrequired, hkind], by rw [hfound]⟩

/-- **Disagreements with interfaces.** What is reported is a disagreement of a member with an interface
member that it implements, at the place of the member, and nothing else. A disagreement is reported
unless an earlier comparison has the same keys; so every one is, if comparisons of the same keys come
out the same.

**Proof sketch.** The comparisons that are made are the first ones of each pair of keys, and a list
contains the first comparison of every pair of keys in it. -/
theorem mismatches_reported (p : Program) :
    (∀ e ∈ p.implementationErrors, ∃ c, p.Compares c ∧ c.Differs ∧ e = c.error) ∧
    (∀ before c after, p.comparisons = before ++ c :: after → c.Differs →
      c.error ∈ p.implementationErrors ∨ ∃ b ∈ before, b.keys = c.keys) ∧
    (p.ComparedByKeys → ∀ c, p.Compares c → c.Differs → c.error ∈ p.implementationErrors) := by
  have hfirst {before after : List Comparison} {c : Comparison}
      (hsplit : p.comparisons = before ++ c :: after) (hc : c.Differs)
      (hkeys : ∀ b ∈ before, b.keys ≠ c.keys) : c.error ∈ p.implementationErrors := by
    rw [implementationErrors_eq_firsts]
    exact Comparison.mem_errors_iff.2 ⟨c, Comparison.mem_firsts_iff.2
      ⟨List.not_mem_nil, before, after, hsplit, hkeys⟩, hc, rfl⟩
  refine ⟨fun e he => ?_, fun before c after hsplit hc => ?_, fun hunique c hcompares hc => ?_⟩
  · rw [implementationErrors_eq_firsts] at he
    obtain ⟨c, hmem, hc, rfl⟩ := Comparison.mem_errors_iff.1 he
    obtain ⟨-, before, after, hsplit, -⟩ := Comparison.mem_firsts_iff.1 hmem
    exact ⟨c, mem_comparisons_iff.1 (by simp [hsplit]), hc, rfl⟩
  · by_cases hkeys : ∃ b ∈ before, b.keys = c.keys
    · exact .inr hkeys
    · exact .inl (hfirst hsplit hc fun b hb heq => hkeys ⟨b, hb, heq⟩)
  · -- The first comparison of the keys of `c` differs as well.
    have hmem : c ∈ p.comparisons := mem_comparisons_iff.2 hcompares
    cases hfind : p.comparisons.find? fun d => decide (d.keys = c.keys) with
    | none => exact absurd (List.find?_eq_none.1 hfind c hmem) (by simp)
    | some d =>
      obtain ⟨hkeys, before, after, hsplit, hbefore⟩ := List.find?_eq_some_iff_append.1 hfind
      have hkeys : d.keys = c.keys := of_decide_eq_true hkeys
      obtain ⟨hsame, hspan⟩ := hunique d c
        (mem_comparisons_iff.1 (List.mem_of_find?_eq_some hfind)) hcompares hkeys
      have herror : d.error = c.error := by
        obtain ⟨hfound, hrequired⟩ := Prod.mk.inj hkeys
        rw [Comparison.error, Comparison.error, hfound, hrequired, hspan]
      rw [← herror]
      exact hfirst hsplit (hsame.2 hc) fun b hb => by simpa [hkeys] using hbefore b hb

end Program

/-! ## Overloads and instantiations -/

namespace Gates

/-- A value that comes out of a gate; it can leave the caller's frame if it is `free`. -/
def out (name : String) (free : Bool) : Param :=
  ⟨name, .object, .out, false, if free then [⟨.unscopedRef, .zero⟩] else [], .zero⟩

/-- A method, which may name the interface member that it implements. -/
def method (id : NodeId) (name : String) (params : List Param)
    (explicitly : Option MemberRef) : FnDecl :=
  ⟨id, name, .method, default, [], params, .nothing, [], explicitly, none, none, .zero⟩

/-- A type with some interfaces. -/
def declare (id : NodeId) (name : String) (kind : TypeKind) (interfaces : List TypeRef)
    (members : List FnDecl) : TypeDecl :=
  ⟨id, name, kind, false, false, [], interfaces, [], [], members, .zero⟩

/-- What every gate can do: open, and open with something to spare. -/
def required (other : String) : TypeDecl := declare 1 "IGate" .interface [] [
  method 2 "Open" [out "a" false] none, method 3 other [out "a" false, out "b" false] none]

/-- A gate that lets the second value of the second method leave. -/
def gate (other : String) : TypeDecl := declare 4 "Gate" .classType [.named "IGate" []] [
  method 5 "Open" [out "a" false] none, method 6 other [out "a" false, out "b" true] none]

/-- The second method, as it is required and as it is implemented. -/
def second (other : String) : Comparison :=
  ⟨gate other, ⟨required other, method 3 other [out "a" false, out "b" false] none⟩,
    ⟨gate other, method 6 other [out "a" false, out "b" true] none⟩⟩

/-- The second method is compared with what is required of it. -/
theorem compares_second {other : String}
    (h : (⟨[required other, gate other]⟩ : Program).implementing? "Gate" (second other).required =
      some (second other).found) :
    (⟨[required other, gate other]⟩ : Program).Compares (second other) := by
  have hrequires : (second other).required ∈
      (⟨[required other, gate other]⟩ : Program).interfaceMembers (.named "IGate" []) :=
    Program.mem_interfaceMembers_iff.2 ⟨"IGate", rfl, Program.mem_members_iff.2
      ⟨List.mem_cons_self .., by simp [second, required, declare]⟩, rfl, .refl⟩
  exact ⟨List.mem_cons_of_mem _ (List.mem_cons_self ..), TypeKind.noConfusion,
    ⟨_, List.mem_cons_self .., hrequires⟩, rfl, h⟩

/-- The second overload differs from what is required of it, and nothing is reported: the first one was
compared under the same keys. -/
theorem overload_unreported :
    let p : Program := ⟨[required "Open", gate "Open"]⟩
    p.Compares (second "Open") ∧ (second "Open").Differs ∧ p.implementationErrors = [] :=
  ⟨compares_second (by cbv), Comparison.disagrees_iff.1 (by decide +kernel), by cbv⟩

/-- If the methods have different names, it is reported. -/
theorem mismatches_reported_gate :
    let p : Program := ⟨[required "Spare", gate "Spare"]⟩
    p.ComparedByKeys ∧ p.Compares (second "Spare") ∧ (second "Spare").Differs ∧
      (second "Spare").error ∈ p.implementationErrors := by
  intro p
  have hcompares : p.Compares (second "Spare") := compares_second (by cbv)
  have hdiffers : (second "Spare").Differs := Comparison.disagrees_iff.1 (by decide +kernel)
  have hkeys : p.ComparedByKeys :=
    Program.comparedByKeys_of_distinct (by decide +kernel) (by decide +kernel)
  exact ⟨hkeys, hcompares, hdiffers, (Program.mismatches_reported p).2.2 hkeys _ hcompares hdiffers⟩

end Gates

end StackEscape
