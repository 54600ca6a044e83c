import StackEscape.Proofs.FiledParams
import StackEscape.Proofs.Receivers

/-!
# Local functions that are called before they are declared

The contract of a local function is built where it is needed first. That may be a call before the
declaration, when the capabilities of the function's type parameters have not been filed, or a call
inside of another local function, where a name may mean another type parameter. It is the contract
that its declaration says if and only if the types of its signature are stack-only here and there
alike.

## Main definitions

* `StackEscape.FnDecl.signature` — the types that a function is declared with.
* `StackEscape.Member.declaredContract` — the contract that the declaration of a local function
  says.
* `StackEscape.Member.Steady` — no type of the signature depends on where it is looked at.
* `StackEscape.Tables.Settled` — what is filed of the local functions of a member.

## Main results

* `StackEscape.Contract.build_eq_iff` — when two contracts of a declaration are the same.
* `StackEscape.Program.owner_of_declared` — the check of declarations files nothing for local
  functions.
* `StackEscape.Surroundings.Inside.build_declared` — the contract of a steady local function is the
  same wherever it is built.
* `StackEscape.Tables.Settled.steps`, `StackEscape.Program.settled_checkMembers` — walks keep what
  is filed.
-/

set_option autoImplicit false

namespace StackEscape

/-! ## Signatures -/

/-- The types that a function is declared with. -/
def FnDecl.signature (d : FnDecl) : List TypeRef := d.params.map Param.ty ++ [d.ret.ty]

/-- Two contracts of a declaration are the same exactly if the same types of its signature are
stack-only for both. -/
theorem Contract.build_eq_iff {c c' : Capabilities} {p : Program} {g g' : GenericScope}
    {owner : TypeDecl} {d : FnDecl} {key : String} {isLocal : Bool} :
    build c p owner d key g isLocal = build c' p owner d key g' isLocal ↔
      ∀ ty ∈ d.signature, c.stackOnly p g ty = c'.stackOnly p g' ty := by
  constructor
  · intro h ty hty
    have hparams : d.params.map (fun q => ParamContract.ofParam q (c.stackOnly p g q.ty)) =
        d.params.map fun q => ParamContract.ofParam q (c'.stackOnly p g' q.ty) :=
      congrArg Contract.params h
    have hret : c.stackOnly p g d.ret.ty = c'.stackOnly p g' d.ret.ty :=
      congrArg Contract.returnsStackOnly h
    rcases List.mem_append.1 hty with hty | hty
    · obtain ⟨q, hq, rfl⟩ := List.mem_map.1 hty
      exact congrArg ParamContract.stackOnly (List.map_inj_left.1 hparams q hq)
    · rw [List.mem_singleton.1 hty]
      exact hret
  · intro h
    have hparams : d.params.map (fun q => ParamContract.ofParam q (c.stackOnly p g q.ty)) =
        d.params.map fun q => ParamContract.ofParam q (c'.stackOnly p g' q.ty) :=
      List.map_congr_left fun q hq =>
        congrArg _ (h q.ty (List.mem_append_left _ (List.mem_map_of_mem hq)))
    have hret : c.stackOnly p g d.ret.ty = c'.stackOnly p g' d.ret.ty :=
      h d.ret.ty (List.mem_append_right _ (List.mem_singleton_self _))
    simp only [build, hparams, hret]

/-! ## Clauses -/

/-- Does the clause say that stack-only types may be substituted? -/
def TypeParam.admitsStackOnly (q : TypeParam) : Bool :=
  q.hasAllowsMarker && !q.has .referenceType

/-- A type parameter may be stack-only exactly if its own clause says so. -/
theorem Clause.isStackOnly_capability (c : Clause) (q : TypeParam) :
    (c.capability q).isStackOnly = q.admitsStackOnly := Bool.false_or _

namespace Capabilities

variable {c d : Capabilities} {p : Program} {own : String → Prop}

/-- What is filed under a key of the declaration was filed before, or is what a clause says. -/
theorem clause_of_fillOwn {owner name : String} {params : List TypeParam} {scope : GenericScope}
    {v : Capability} (h : (c.fillOwn p owner params scope).get? ⟨owner, name⟩ = some v) :
    c.get? ⟨owner, name⟩ = some v ∨
      ∃ q ∈ params, q.name = name ∧ v.isStackOnly = q.admitsStackOnly := by
  -- The parameters still to be filed get fewer, their siblings stay the same.
  suffices main : ∀ (qs : List TypeParam) (c : Capabilities),
      (qs.foldl (fun caps q => caps.fillOne p owner params scope q) c).get? ⟨owner, name⟩ = some v →
      c.get? ⟨owner, name⟩ = some v ∨
        ∃ q ∈ qs, q.name = name ∧ v.isStackOnly = q.admitsStackOnly from main params c h
  intro qs
  induction qs with
  | nil => exact fun _ h => Or.inl h
  | cons q rest ih =>
    intro c h
    rcases ih _ h with hq | ⟨r, hr, hname, hv⟩
    · simp only [fillOne, Table.get?_keep] at hq
      split at hq
      · next hkey =>
        obtain ⟨-, rfl⟩ := TypeParamKey.mk.inj hkey
        cases hc : c.get? ⟨owner, q.name⟩ with
        | some w =>
          left
          rwa [hc, Option.getD_some] at hq
        | none =>
          right
          rw [hc, Option.getD_none] at hq
          obtain rfl := Option.some.inj hq
          exact ⟨q, List.mem_cons_self .., rfl, Clause.isStackOnly_capability _ q⟩
      · exact Or.inl hq
    · exact Or.inr ⟨r, List.mem_cons_of_mem _ hr, hname, hv⟩

/-! ## What the check of declarations files -/

/-- All that is filed belongs to some owner. -/
def OwnedBy (own : String → Prop) (c : Capabilities) : Prop :=
  ∀ k v, c.get? k = some v → own k.owner

theorem OwnedBy.keep (h : c.OwnedBy own) {k : TypeParamKey} (hk : own k.owner) (v : Capability) :
    OwnedBy own (c.keep k v) := by
  intro k' v' hget
  rw [Table.get?_keep] at hget
  split at hget
  · next he => exact he ▸ hk
  · exact h k' v' hget

/-- A fold whose steps file only for owners. -/
theorem ownedBy_foldl {σ α : Type} (caps : σ → Capabilities) {f : σ → α → σ} {l : List α}
    (h : ∀ s, ∀ a ∈ l, (caps s).OwnedBy own → (caps (f s a)).OwnedBy own) {s : σ}
    (hs : (caps s).OwnedBy own) : (caps (l.foldl f s)).OwnedBy own :=
  List.foldlRecOn l f (motive := fun s => (caps s).OwnedBy own) hs fun s hs a ha => h s a ha hs

theorem OwnedBy.fillOwn (h : c.OwnedBy own) {owner : String} (ho : own owner)
    (params : List TypeParam) (scope : GenericScope) :
    OwnedBy own (c.fillOwn p owner params scope) :=
  ownedBy_foldl id (fun _ _ _ hc => hc.keep ho _) h

/-- On the way to the root of a chain of members there are only members. -/
theorem owner_of_inherited (c : Capabilities) (index : Nat) {pending : List String} (m : Member)
    {k : TypeParamKey} (hk : k ∈ (p.inherited c index pending m).2) : k.owner ∈ pending := by
  fun_induction p.inherited c index pending m
  case case3 pending m q hq hget hmem base hbase inherited keys hrest ih =>
    rw [hrest] at ih
    rcases List.mem_cons.1 hk with rfl | hk
    · exact hmem
    · exact (mem_without.1 (ih hk)).1
  case case4 pending m q hq hget hmem hbase =>
    obtain rfl := List.mem_singleton.1 hk
    exact hmem
  all_goals exact absurd hk List.not_mem_nil

theorem OwnedBy.fillInherited (h : c.OwnedBy own) (hown : ∀ k ∈ p.memberKeys, own k) (m : Member)
    (index : Nat) : OwnedBy own (c.fillInherited p m index) :=
  ownedBy_foldl id (fun _ _ hk hc => hc.keep (hown _ (owner_of_inherited c index m hk)) _) h

end Capabilities

namespace Declarations

variable {p : Program}

/-- The types that are entered are types of the program. -/
theorem firstParts_subset (seen : List String) (ts : List TypeDecl) : firstParts seen ts ⊆ ts := by
  induction ts generalizing seen with
  | nil => exact List.Subset.refl _
  | cons t rest ih =>
    rw [firstParts]
    split
    · exact List.subset_cons_of_subset _ (ih seen)
    · exact List.cons_subset_cons _ (ih _)

/-- A type or member of the program. -/
def IsOwner (p : Program) (k : String) : Prop := k ∈ p.typeNames ∨ k ∈ p.memberKeys

theorem ownedBy_fillMember {c : Capabilities} (h : c.OwnedBy (IsOwner p)) {m : Member}
    (hm : m ∈ p.members) : (fillMember p c m).OwnedBy (IsOwner p) := by
  unfold fillMember
  split
  · exact Capabilities.ownedBy_foldl id (fun _ i _ hc => hc.fillInherited (fun _ => Or.inr) m i) h
  · exact h.fillOwn (Or.inr (List.mem_map_of_mem hm)) _ _

theorem ownedBy_checkPart (runtime : Bool) {s : State} (h : s.caps.OwnedBy (IsOwner p)) (i : Nat)
    {t : TypeDecl} (ht : t ∈ p.types) : (checkPart p runtime s i t).caps.OwnedBy (IsOwner p) := by
  refine Capabilities.ownedBy_foldl State.caps (fun s x hx hs => ?_) ?_
  · have hmem : x.1 ∈ t.members := List.fst_mem_of_mem_zipIdx hx
    have hm : (⟨t, x.1⟩ : Member) ∈ p.members :=
      List.mem_flatMap.2 ⟨t, ht, List.mem_map_of_mem hmem⟩
    exact ownedBy_fillMember hs hm
  · change (t.typeParams.foldl (checkTypeClause runtime t.name) s).caps.OwnedBy (IsOwner p)
    rw [caps_foldl_checkTypeClause]
    exact h

end Declarations

/-- The check of declarations files capabilities for types and members only. -/
theorem Program.owner_of_declared (p : Program) (runtime : Bool) :
    (p.declaredTables runtime).caps.OwnedBy (Declarations.IsOwner p) := by
  have hnone : Capabilities.OwnedBy (Declarations.IsOwner p) .empty := by
    intro k v h
    simp at h
  have hentered : ((Declarations.firstParts [] p.types).foldl (Declarations.enterType p)
      ⟨.empty, [], []⟩).caps.OwnedBy (Declarations.IsOwner p) :=
    Capabilities.ownedBy_foldl Declarations.State.caps (fun s t ht hs => hs.fillOwn
      (Or.inl (List.mem_map_of_mem (Declarations.firstParts_subset [] p.types ht))) _ _) hnone
  change (p.checkDeclarations runtime .empty).1.OwnedBy _
  rw [caps_checkDeclarations]
  exact Capabilities.ownedBy_foldl Declarations.State.caps (fun s x hx hs =>
    Declarations.ownedBy_checkPart runtime hs x.2 (List.fst_mem_of_mem_zipIdx hx)) hentered

/-! ## Signatures that mean the same everywhere -/

namespace Member

/-- The contract of a local function by its declaration. The check of declarations files nothing for
type parameters of its own, so they count as ordinary. -/
def declaredContract (m : Member) (caps : Capabilities) (p : Program) (d : FnDecl) : Contract :=
  Contract.build caps p m.owner d (m.localKey d)
    (m.innerScope.push (m.localKey d) d.typeParams) true

/-- Types in the signature of the local function are stack-only wherever it is needed first, or
nowhere. -/
structure Steady (m : Member) (caps : Capabilities) (p : Program) (d : FnDecl) : Prop where
  /-- A type parameter of its own may not be stack-only. -/
  own : ∀ ty ∈ d.signature, ∀ q ∈ d.typeParams, ty = .param q.name → q.admitsStackOnly = false
  /-- If some local function has another one of the same name, neither of the two may be. -/
  others : ∀ ty ∈ d.signature, ∀ e ∈ m.localFunctions, ∀ q ∈ e.typeParams, ty = .param q.name →
    q.name ∉ d.typeParams.map TypeParam.name →
      q.admitsStackOnly = false ∧ caps.stackOnly p m.innerScope ty = false

instance (m : Member) (caps : Capabilities) (p : Program) (d : FnDecl) :
    Decidable (m.Steady caps p d) :=
  decidable_of_iff
    ((∀ ty ∈ d.signature, ∀ q ∈ d.typeParams, ty = .param q.name → q.admitsStackOnly = false) ∧
      ∀ ty ∈ d.signature, ∀ e ∈ m.localFunctions, ∀ q ∈ e.typeParams, ty = .param q.name →
        q.name ∉ d.typeParams.map TypeParam.name →
          q.admitsStackOnly = false ∧ caps.stackOnly p m.innerScope ty = false)
    ⟨fun h => ⟨h.1, h.2⟩, fun h => ⟨h.own, h.others⟩⟩

end Member

/-- What is filed of the local functions of a member: capabilities that their clauses say, and the
declared contracts of those that are steady. -/
structure Tables.Settled (p : Program) (declared : Capabilities) (m : Member) (T : Tables) : Prop
    extends Tables.Declared p declared T where
  /-- A type parameter may be stack-only only if a clause says so. -/
  clauses : ∀ d ∈ m.localFunctions, ∀ name v, T.caps.get? ⟨m.localKey d, name⟩ = some v →
    v.isStackOnly = true → ∃ q ∈ d.typeParams, q.name = name ∧ q.admitsStackOnly = true
  /-- The contract of a steady local function is the declared one. -/
  contracts : ∀ d ∈ m.localFunctions, m.Steady declared p d → ∀ c,
    T.contracts.get? (m.localKey d) = some c → c = m.declaredContract declared p d

/-- A table of capabilities that holds nothing for local functions. -/
theorem Tables.settled_empty {p : Program} (hk : p.DistinctKeys) {caps : Capabilities}
    (hcaps : caps.OwnedBy (Declarations.IsOwner p)) {m : Member} (hm : m ∈ p.members) :
    Tables.Settled p caps m ⟨caps, .empty⟩ where
  toDeclared := .empty p caps
  clauses d hd name v hv _ := by
    have hmem : m.localKey d ∈ p.localKeys := Program.DistinctKeys.localKey_mem hm hd
    rcases hcaps _ v hv with hty | hmember
    · exact absurd hty (hk.localKey_not_mem_typeNames hmem)
    · exact absurd hmember (hk.localKey_not_mem_memberKeys hmem)
  contracts _ _ _ c hc := by simp at hc

/-- In one more declaration a name means a type parameter of that, or what it meant. -/
theorem Capabilities.stackOnly_push (caps : Capabilities) (p : Program) (g : GenericScope)
    (owner : String) (params : List TypeParam) (name : String) :
    caps.stackOnly p (g.push owner params) (.param name) =
      if name ∈ params.map TypeParam.name then
        (caps.get? ⟨owner, name⟩).any Capability.isStackOnly
      else caps.stackOnly p g (.param name) := by
  have hresolve : (g.push owner params).resolve name =
      if name ∈ params.map TypeParam.name then some ⟨owner, name⟩ else g.resolve name := by
    simp only [GenericScope.resolve, GenericScope.push, List.find?_cons]
    by_cases hname : name ∈ params.map TypeParam.name
    · rw [if_pos hname, List.contains_iff_mem.2 hname]
      rfl
    · rw [if_neg hname, Bool.eq_false_iff.2 fun h => hname (List.contains_iff_mem.1 h)]
  simp only [stackOnly, of, ofParam, hresolve]
  split
  · rw [Option.bind_some]
    cases caps.get? ⟨owner, name⟩ <;> rfl
  · rfl

section Settled

variable {env : Surroundings} {caps : Capabilities} {T U : Tables}

/-- A type parameter of a local function whose clause does not say so is not stack-only. -/
theorem Tables.Settled.any_isStackOnly {p : Program} {m : Member} (h : T.Settled p caps m)
    {d : FnDecl} (hd : d ∈ m.localFunctions) {name : String}
    (hown : ∀ q ∈ d.typeParams, q.name = name → q.admitsStackOnly = false) :
    (T.caps.get? ⟨m.localKey d, name⟩).any Capability.isStackOnly = false := by
  cases hv : T.caps.get? ⟨m.localKey d, name⟩ with
  | none => rfl
  | some v =>
    rw [Option.any_some, Bool.eq_false_iff]
    intro hstack
    obtain ⟨q, hq, hname, hadmits⟩ := h.clauses d hd name v hv hstack
    rw [hown q hq hname] at hadmits
    exact Bool.false_ne_true hadmits

/-- A type means in the whole body what it means in the member, unless some local function has a
type parameter of its name, and one of the two may be stack-only. -/
theorem Surroundings.Inside.stackOnly_eq (hk : env.program.DistinctKeys)
    (hm : env.member ∈ env.program.members) (h : T.Settled env.program caps env.member)
    {g : GenericScope} (hg : env.Inside g) {ty : TypeRef}
    (hothers : ∀ e ∈ env.member.localFunctions, ∀ q ∈ e.typeParams, ty = .param q.name →
      q.admitsStackOnly = false ∧ caps.stackOnly env.program env.member.innerScope ty = false) :
    T.caps.stackOnly env.program g ty = caps.stackOnly env.program env.member.innerScope ty := by
  induction hg with
  | member =>
    refine congrFun (h.caps.stackOnly_eq (Member.ownedBy_innerScope ?_ ?_)) ty
    · exact fun hmem => hk.localKey_not_mem_memberKeys hmem (List.mem_map_of_mem hm)
    · exact fun hmem => hk.localKey_not_mem_typeNames hmem (Surroundings.typeName_mem hm)
  | @localFunction g d _ hd ih =>
    rw [← ih]
    cases ty with
    | param name =>
      rw [Capabilities.stackOnly_push]
      split
      · next hname =>
        obtain ⟨q, hq, rfl⟩ := List.mem_map.1 hname
        have hadmits : ∀ r ∈ d.typeParams, r.name = q.name → r.admitsStackOnly = false :=
          fun r hr he => (hothers d hd r hr (by rw [he])).1
        rw [ih, (hothers d hd q hq rfl).2]
        exact h.any_isStackOnly hd hadmits
      · rfl
    | _ => rfl

/-- The contract of a steady local function is the declared one, wherever in the body it is built
and whatever is filed by then. -/
theorem Surroundings.Inside.build_declared (hk : env.program.DistinctKeys)
    (hm : env.member ∈ env.program.members) (h : T.Settled env.program caps env.member)
    (hcaps : caps.OwnedBy (Declarations.IsOwner env.program)) {g : GenericScope}
    (hg : env.Inside g) {d : FnDecl} (hd : d ∈ env.member.localFunctions)
    (hsteady : env.member.Steady caps env.program d) :
    Contract.build T.caps env.program env.member.owner d (env.localKey d)
        (g.push (env.localKey d) d.typeParams) true =
      env.member.declaredContract caps env.program d := by
  refine Contract.build_eq_iff.2 fun ty hty => ?_
  cases ty with
  | param name =>
    rw [Capabilities.stackOnly_push, Capabilities.stackOnly_push]
    split
    · next hname =>
      have hadmits : ∀ q ∈ d.typeParams, q.name = name → q.admitsStackOnly = false :=
        fun q hq he => hsteady.own _ hty q hq (by rw [he])
      have hdeclared := (Tables.settled_empty hk hcaps hm).any_isStackOnly hd hadmits
      exact (h.any_isStackOnly hd hadmits).trans hdeclared.symm
    · next hname =>
      refine hg.stackOnly_eq hk hm h fun e he q hq hparam => ?_
      refine hsteady.others _ hty e he q hq hparam ?_
      obtain rfl := TypeRef.param.inj hparam
      exact hname
  | _ => rfl

end Settled

namespace Tables.Settled

variable {env : Surroundings} {caps : Capabilities} {m : Member} {T U : Tables}

/-- What one step of a walk files. -/
theorem step (hk : env.program.DistinctKeys) (hm : env.member ∈ env.program.members)
    (hcaps : caps.OwnedBy (Declarations.IsOwner env.program)) (hm' : m ∈ env.program.members)
    (h : T.Settled env.program caps m) (hstep : env.TableStep T U) :
    U.Settled env.program caps m := by
  refine ⟨h.toDeclared.step hk hm hstep, ?_, ?_⟩
  all_goals
    intro d hd
    have hlocal : m.localKey d ∈ env.program.localKeys :=
      Program.DistinctKeys.localKey_mem hm' hd
  · intro name v hv hstack
    cases hstep with
    | member => exact h.clauses d hd name v hv hstack
    | localFunction => exact h.clauses d hd name v hv hstack
    | @typeParams g e _ he =>
      by_cases hkey : m.localKey d = env.localKey e
      · obtain ⟨rfl, rfl⟩ := hk.localFunction_eq hm' hm hd he hkey
        rcases Capabilities.clause_of_fillOwn hv with hv | ⟨q, hq, hname, hq'⟩
        · exact h.clauses d hd name v hv hstack
        · exact ⟨q, hq, hname, hq'.symm.trans hstack⟩
      · rw [Capabilities.get?_fillOwn_of_ne hkey] at hv
        exact h.clauses d hd name v hv hstack
  · intro hsteady c hc
    cases hstep with
    | @member m₁ hm₁ =>
      have hne : m.localKey d ≠ m₁.key := fun he =>
        hk.localKey_not_mem_memberKeys hlocal (he ▸ List.mem_map_of_mem hm₁)
      rw [Contracts.get?_obtain, if_neg hne] at hc
      exact h.contracts d hd hsteady c hc
    | @localFunction g e hg he =>
      rw [Contracts.get?_obtain] at hc
      split at hc
      · next hkey =>
        obtain ⟨rfl, rfl⟩ := hk.localFunction_eq hm' hm hd he hkey
        cases hfound : T.contracts.get? (env.localKey d) with
        | some found =>
          rw [hfound, Option.getD_some] at hc
          obtain rfl := Option.some.inj hc
          exact h.contracts d hd hsteady found hfound
        | none =>
          rw [hfound, Option.getD_none] at hc
          obtain rfl := Option.some.inj hc
          exact hg.build_declared hk hm h hcaps hd hsteady
      · exact h.contracts d hd hsteady c hc
    | typeParams => exact h.contracts d hd hsteady c hc

/-- What a walk over a body files. -/
theorem steps (env : Surroundings) (hk : env.program.DistinctKeys)
    (hm : env.member ∈ env.program.members)
    (hcaps : caps.OwnedBy (Declarations.IsOwner env.program)) (hm' : m ∈ env.program.members)
    (h : T.Settled env.program caps m) (hsteps : Relation.ReflTransGen env.TableStep T U) :
    U.Settled env.program caps m := by
  induction hsteps with
  | refl => exact h
  | tail _ hstep ih => exact ih.step hk hm hcaps hm' hstep

/-- What is obtained for a steady local function is the declared contract. -/
theorem obtainLocal (env : Surroundings) (h : T.Settled env.program caps env.member)
    (hk : env.program.DistinctKeys) (hm : env.member ∈ env.program.members)
    (hcaps : caps.OwnedBy (Declarations.IsOwner env.program)) {g : GenericScope}
    (hg : env.Inside g) {d : FnDecl} (hd : d ∈ env.member.localFunctions)
    (hsteady : env.member.Steady caps env.program d) :
    (T.contracts.obtain (env.localKey d) (Contract.build T.caps env.program env.member.owner d
        (env.localKey d) (g.push (env.localKey d) d.typeParams) true)).1 =
      env.member.declaredContract caps env.program d := by
  rw [Contracts.obtain_fst]
  cases hfound : T.contracts.get? (env.localKey d) with
  | some found => exact h.contracts d hd hsteady found hfound
  | none => exact hg.build_declared hk hm h hcaps hd hsteady

end Tables.Settled

/-- What the walks over some members file. -/
theorem Program.settled_checkMembers {p : Program} (hk : p.DistinctKeys) (runtime : Bool)
    {before : List Member} (hbefore : before ⊆ p.members) {m : Member} (hm : m ∈ p.members) :
    (p.checkMembers runtime (p.declaredTables runtime) before).2.Settled p
      (p.declaredTables runtime).caps m :=
  have hcaps := p.owner_of_declared runtime
  checkMembers_keeps (P := fun T => T.Settled p _ m)
    (fun m' hm' _ _ hsteps h => h.steps ⟨p, m', runtime⟩ hk hm' hcaps hm hsteps)
    (Tables.settled_empty hk hcaps hm) hbefore

end StackEscape
