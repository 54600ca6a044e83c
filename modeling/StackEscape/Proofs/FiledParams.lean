import StackEscape.Proofs.Binders

/-!
# Type parameters in scope

When bodies are walked, the capabilities of all type parameters that are in scope have been filed:
those of types and members by the check of declarations, those of local functions when the function
is entered. What is filed stays, so a type means the same at a point of a body whenever it is asked
for.

## Main definitions

* `StackEscape.GenericScope.Filed` — all type parameters in scope have a capability.
* `StackEscape.Program.AlignedParts` — the parts of a type have the type parameters of its first
  part.

## Main results

* `StackEscape.TypeEnv.capability_of_filed` — later tables say the same of the types in scope.
* `StackEscape.Program.filed_innerScope` — the check of declarations files all type parameters that
  are in scope in a member.
-/

set_option autoImplicit false

namespace StackEscape

/-! ## Scopes -/

namespace GenericScope

/-- All type parameters in scope have a capability. -/
def Filed (g : GenericScope) (caps : Capabilities) : Prop :=
  ∀ frame ∈ g, ∀ name ∈ frame.names, (caps.get? ⟨frame.owner, name⟩).isSome

variable {g : GenericScope} {c d : Capabilities}

/-- Where nothing is in scope, all of it is filed. -/
theorem filed_nil (caps : Capabilities) : Filed [] caps :=
  fun _ hframe => absurd hframe List.not_mem_nil

/-- They keep it while more is filed. -/
theorem Filed.within (h : g.Filed c) (hcd : c.Within d) : g.Filed d := by
  intro frame hframe name hname
  obtain ⟨v, hv⟩ := Option.isSome_iff_exists.1 (h frame hframe name hname)
  rw [hcd _ v hv]
  rfl

/-- A declaration whose type parameters are filed may be entered. -/
theorem Filed.push (h : g.Filed c) {owner : String} {params : List TypeParam}
    (hparams : ∀ q ∈ params, (c.get? ⟨owner, q.name⟩).isSome) : (g.push owner params).Filed c := by
  intro frame hframe name hname
  rcases List.mem_cons.1 hframe with rfl | hframe
  · obtain ⟨q, hq, rfl⟩ := List.mem_map.1 hname
    exact hparams q hq
  · exact h frame hframe name hname

/-- A name in scope means a type parameter that has a capability. -/
theorem Filed.resolve (h : g.Filed c) {name : String} {key : TypeParamKey}
    (hkey : g.resolve name = some key) : (c.get? key).isSome := by
  obtain ⟨frame, hframe, rfl⟩ := Option.map_eq_some_iff.1 hkey
  have hname : name ∈ frame.names := by simpa using List.find?_some hframe
  exact h frame (List.mem_of_find?_eq_some hframe) name hname

end GenericScope

/-- Later tables say the same of a type as the table in which all type parameters in scope are
filed. -/
theorem TypeEnv.capability_of_filed {p : Program} {g : GenericScope} {c d : Capabilities}
    (runtime : Bool) (h : g.Filed c) (hcd : c.Within d) :
    TypeEnv.capability ⟨p, c, g, runtime⟩ = TypeEnv.capability ⟨p, d, g, runtime⟩ := by
  funext ty
  cases ty with
  | param name =>
    simp only [capability, Capabilities.of, Capabilities.ofParam]
    cases hkey : g.resolve name with
    | none => rfl
    | some key =>
      obtain ⟨v, hv⟩ := Option.isSome_iff_exists.1 (h.resolve hkey)
      rw [Option.bind_some, Option.bind_some, hv, hcd key v hv]
  | _ => rfl

/-! ## Filing -/

namespace Capabilities

/-- Filing under a key gives the key a capability. -/
theorem isSome_keep (c : Capabilities) (k : TypeParamKey) (v : Capability) :
    ((c.keep k v).get? k).isSome := by
  rw [Table.get?_keep, if_pos rfl]
  rfl

/-- A capability that was filed is still there. -/
theorem Within.isSome {c d : Capabilities} (h : c.Within d) {k : TypeParamKey}
    (hk : (c.get? k).isSome) : (d.get? k).isSome := by
  obtain ⟨v, hv⟩ := Option.isSome_iff_exists.1 hk
  rw [h k v hv]
  rfl

/-- A fold that only adds to the table leaves what is filed. -/
theorem within_foldl {σ α : Type} (caps : σ → Capabilities) {f : σ → α → σ}
    (h : ∀ s a, (caps s).Within (caps (f s a))) (l : List α) (s : σ) :
    (caps s).Within (caps (l.foldl f s)) := by
  induction l generalizing s with
  | nil => exact Within.refl _
  | cons a rest ih => exact (h s a).trans (ih _)

/-- What one of its steps files is there at the end. -/
theorem isSome_foldl {σ α : Type} (caps : σ → Capabilities) {f : σ → α → σ}
    (h : ∀ s a, (caps s).Within (caps (f s a))) {k : TypeParamKey} {a : α}
    (ha : ∀ s, ((caps (f s a)).get? k).isSome) {l : List α} (hl : a ∈ l) (s : σ) :
    ((caps (l.foldl f s)).get? k).isSome := by
  obtain ⟨before, later, rfl⟩ := List.append_of_mem hl
  rw [List.foldl_append, List.foldl_cons]
  exact (within_foldl caps h later _).isSome (ha _)

/-- A declaration's own type parameters are filed. -/
theorem isSome_fillOwn (c : Capabilities) (p : Program) (owner : String)
    (params : List TypeParam) (scope : GenericScope) {q : TypeParam} (hq : q ∈ params) :
    ((c.fillOwn p owner params scope).get? ⟨owner, q.name⟩).isSome := by
  have hstep (c : Capabilities) (q : TypeParam) : c.Within (c.fillOne p owner params scope q) :=
    within_keep c _ _
  have hfiled (c : Capabilities) :
      ((c.fillOne p owner params scope q).get? ⟨owner, q.name⟩).isSome := isSome_keep c _ _
  exact isSome_foldl id hstep hfiled hq c

theorem within_fillInherited (c : Capabilities) (p : Program) (m : Member) (index : Nat) :
    c.Within (c.fillInherited p m index) :=
  within_foldl id (fun c k => within_keep c k _) _ c

/-- A type parameter that takes over a capability is filed. -/
theorem isSome_fillInherited (c : Capabilities) {p : Program} {m : Member}
    (hm : m ∈ p.members) {base : Member} (hbase : m.decl.base.bind p.member? = some base)
    {index : Nat} {q : TypeParam} (hq : m.decl.typeParams[index]? = some q) :
    ((c.fillInherited p m index).get? ⟨m.key, q.name⟩).isSome := by
  have hkey : m.key ∈ p.memberKeys := List.mem_map_of_mem hm
  cases hc : c.get? ⟨m.key, q.name⟩ with
  | some v => exact (within_fillInherited c p m index).isSome (by rw [hc]; rfl)
  | none =>
    have hfound : (⟨m.key, q.name⟩ : TypeParamKey) ∈ (p.inherited c index p.memberKeys m).2 := by
      rw [Program.inherited, hq]
      simp only [hc, hkey, dite_true, hbase]
      exact List.mem_cons_self ..
    exact isSome_foldl id (fun c k => within_keep c k _) (fun c => isSome_keep c _ _) hfound c

end Capabilities

/-! ## Declarations -/

/-- The members of a program are those of its types. -/
theorem Program.mem_members_iff {p : Program} {m : Member} :
    m ∈ p.members ↔ m.owner ∈ p.types ∧ m.decl ∈ m.owner.members := by
  simp only [members, List.mem_flatMap, List.mem_map]
  constructor
  · rintro ⟨t, ht, d, hd, rfl⟩
    exact ⟨ht, hd⟩
  · rintro ⟨ht, hd⟩
    exact ⟨m.owner, ht, m.decl, hd, rfl⟩

namespace Declarations

/-- Entering a type adds to the table. -/
theorem within_enterType (p : Program) (s : State) (t : TypeDecl) :
    s.caps.Within (enterType p s t).caps :=
  Capabilities.within_fillOwn s.caps p t.name t.typeParams []

theorem within_fillMember (p : Program) (c : Capabilities) (m : Member) :
    c.Within (fillMember p c m) := by
  unfold fillMember
  split
  · exact Capabilities.within_foldl id (fun c i => Capabilities.within_fillInherited c p m i) _ c
  · exact Capabilities.within_fillOwn c p m.key m.decl.typeParams m.outerScope

/-- The type parameters of a member are filed, its own or those it takes over. -/
theorem isSome_fillMember (c : Capabilities) {p : Program} {m : Member} (hm : m ∈ p.members)
    {q : TypeParam} (hq : q ∈ m.decl.typeParams) :
    ((fillMember p c m).get? ⟨m.key, q.name⟩).isSome := by
  unfold fillMember
  split
  · next hbase =>
    obtain ⟨base, hbase⟩ := Option.isSome_iff_exists.1 hbase
    obtain ⟨index, hindex⟩ := List.mem_iff_getElem?.1 hq
    have hlt : index ∈ List.range m.decl.typeParams.length :=
      List.mem_range.2 (List.getElem?_eq_some_iff.1 hindex).1
    exact Capabilities.isSome_foldl id
      (fun c i => Capabilities.within_fillInherited c p m i)
      (fun c => Capabilities.isSome_fillInherited c hm hbase hindex) hlt c
  · exact Capabilities.isSome_fillOwn c p m.key m.decl.typeParams m.outerScope hq

/-- Looking at clauses files nothing. -/
theorem caps_foldl_checkTypeClause (runtime : Bool) (owner : String) (qs : List TypeParam)
    (s : State) : (qs.foldl (checkTypeClause runtime owner) s).caps = s.caps := by
  induction qs generalizing s with
  | nil => rfl
  | cons q rest ih =>
    rw [List.foldl_cons, ih]
    unfold checkTypeClause
    split <;> rfl

theorem within_checkMember (p : Program) (runtime : Bool) (s : State) (place : Place)
    (m : Member) : s.caps.Within (checkMember p runtime s place m).caps :=
  within_fillMember p s.caps m

theorem within_checkPart (p : Program) (runtime : Bool) (s : State) (i : Nat) (t : TypeDecl) :
    s.caps.Within (checkPart p runtime s i t).caps := by
  have hclauses := caps_foldl_checkTypeClause runtime t.name t.typeParams s
  refine Capabilities.Within.trans ?_ (Capabilities.within_foldl State.caps
    (fun s (x : FnDecl × Nat) => within_checkMember p runtime s (i, x.2) ⟨t, x.1⟩) _ _)
  change s.caps.Within (t.typeParams.foldl (checkTypeClause runtime t.name) s).caps
  rw [hclauses]
  exact Capabilities.Within.refl _

/-- The type parameters of a part's members are filed. -/
theorem isSome_checkPart {p : Program} (runtime : Bool) (s : State) (i : Nat) {t : TypeDecl}
    (ht : t ∈ p.types) {d : FnDecl} (hd : d ∈ t.members) {q : TypeParam}
    (hq : q ∈ d.typeParams) :
    ((checkPart p runtime s i t).caps.get? ⟨(⟨t, d⟩ : Member).key, q.name⟩).isSome := by
  have hm : (⟨t, d⟩ : Member) ∈ p.members := Program.mem_members_iff.2 ⟨ht, hd⟩
  obtain ⟨j, hj⟩ := List.mem_iff_getElem?.1 hd
  have hplace : (d, j) ∈ t.members.zipIdx := List.mem_zipIdx_iff_getElem?.2 hj
  have hstep (s : State) (x : FnDecl × Nat) :
      s.caps.Within (checkMember p runtime s (i, x.2) ⟨t, x.1⟩).caps :=
    within_checkMember p runtime s (i, x.2) ⟨t, x.1⟩
  exact Capabilities.isSome_foldl State.caps (a := (d, j)) hstep
    (fun s => isSome_fillMember s.caps hm hq) hplace _

/-- The first part of every type is entered. -/
theorem mem_firstParts {name : String} {first : TypeDecl} (seen : List String)
    {ts : List TypeDecl} (h : ts.find? (fun t => decide (t.name = name)) = some first)
    (hseen : name ∉ seen) : first ∈ firstParts seen ts := by
  induction ts generalizing seen with
  | nil => simp at h
  | cons t rest ih =>
    rw [firstParts]
    by_cases hname : t.name = name
    · obtain rfl : t = first := by simpa [hname] using h
      have hnot : seen.contains t.name = false := by simpa [hname] using hseen
      rw [hnot]
      exact List.mem_cons_self ..
    · rw [List.find?_cons_of_neg (by simpa using hname)] at h
      split
      · exact ih seen h hseen
      · refine List.mem_cons_of_mem _ (ih _ h ?_)
        simp only [List.mem_cons, not_or]
        exact ⟨fun he => hname he.symm, hseen⟩

end Declarations

namespace Program

open Declarations

/-- Every part of a type has the type parameters of the first part. -/
def AlignedParts (p : Program) : Prop :=
  ∀ t ∈ p.types, ∀ q ∈ t.typeParams, ∃ first ∈ p.typeDecl? t.name, ∃ r ∈ first.typeParams,
    r.name = q.name

instance (p : Program) : Decidable p.AlignedParts :=
  inferInstanceAs (Decidable (∀ t ∈ p.types, ∀ q ∈ t.typeParams,
    ∃ first ∈ p.typeDecl? t.name, ∃ r ∈ first.typeParams, r.name = q.name))

variable {p : Program}

/-- The capabilities that the check of declarations files. -/
theorem caps_checkDeclarations (p : Program) (runtime : Bool) (caps : Capabilities) :
    (p.checkDeclarations runtime caps).1 =
      (p.types.zipIdx.foldl (fun s (x : TypeDecl × Nat) => checkPart p runtime s x.2 x.1)
        ((firstParts [] p.types).foldl (enterType p) ⟨caps, [], []⟩)).caps := rfl

/-- Once all types are entered, the type parameters of their parts are filed. -/
theorem isSome_enterTypes (hparts : p.AlignedParts) {t : TypeDecl} (ht : t ∈ p.types)
    {q : TypeParam} (hq : q ∈ t.typeParams) :
    (((firstParts [] p.types).foldl (enterType p) ⟨.empty, [], []⟩).caps.get?
      ⟨t.name, q.name⟩).isSome := by
  obtain ⟨first, hfirst, r, hr, hname⟩ := hparts t ht q hq
  have hfound : p.types.find? (fun u => decide (u.name = t.name)) = some first := hfirst
  have howner : first.name = t.name := by simpa using List.find?_some hfound
  have hentered : (((firstParts [] p.types).foldl (enterType p) ⟨.empty, [], []⟩).caps.get?
      ⟨first.name, r.name⟩).isSome :=
    Capabilities.isSome_foldl State.caps (within_enterType p)
      (fun s => Capabilities.isSome_fillOwn s.caps p first.name first.typeParams [] hr)
      (mem_firstParts [] hfound (List.not_mem_nil)) _
  rwa [howner, hname] at hentered

/-- The type parameters of every part of a type are filed. -/
theorem isSome_of_typeParam (hparts : p.AlignedParts) (runtime : Bool) {t : TypeDecl}
    (ht : t ∈ p.types) {q : TypeParam} (hq : q ∈ t.typeParams) :
    ((p.checkDeclarations runtime .empty).1.get? ⟨t.name, q.name⟩).isSome := by
  rw [caps_checkDeclarations]
  exact (Capabilities.within_foldl State.caps
    (fun s (x : TypeDecl × Nat) => within_checkPart p runtime s x.2 x.1) _ _).isSome
      (isSome_enterTypes hparts ht hq)

/-- The type parameters of every member are filed. -/
theorem isSome_of_memberParam (runtime : Bool) {t : TypeDecl} (ht : t ∈ p.types) {d : FnDecl}
    (hd : d ∈ t.members) {q : TypeParam} (hq : q ∈ d.typeParams) :
    ((p.checkDeclarations runtime .empty).1.get? ⟨(⟨t, d⟩ : Member).key, q.name⟩).isSome := by
  obtain ⟨i, hi⟩ := List.mem_iff_getElem?.1 ht
  have hplace : (t, i) ∈ p.types.zipIdx := List.mem_zipIdx_iff_getElem?.2 hi
  have hstep (s : State) (x : TypeDecl × Nat) :
      s.caps.Within (checkPart p runtime s x.2 x.1).caps := within_checkPart p runtime s x.2 x.1
  rw [caps_checkDeclarations]
  exact Capabilities.isSome_foldl State.caps (a := (t, i)) hstep
    (fun s => isSome_checkPart runtime s i ht hd hq) hplace _

/-- **Type parameters in scope.** The check of declarations files all type parameters that are in
scope in a member: those of its type with the first part, its own with the member itself. -/
theorem filed_innerScope (hparts : p.AlignedParts) (runtime : Bool) {m : Member}
    (hm : m ∈ p.members) : m.innerScope.Filed (p.checkDeclarations runtime .empty).1 := by
  obtain ⟨ht, hd⟩ := mem_members_iff.1 hm
  have hnone := GenericScope.filed_nil (p.checkDeclarations runtime .empty).1
  exact (hnone.push fun q hq => isSome_of_typeParam hparts runtime ht hq).push
    fun q hq => isSome_of_memberParam runtime ht hd hq

end Program

end StackEscape
