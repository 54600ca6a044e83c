import Mathlib.Data.List.Pairwise
import StackEscape.Proofs.Sinks
import StackEscape.Proofs.Walks

/-!
# What is filed in the shared tables

Invariants of the tables that all bodies share. Under distinct keys every contract that is filed is
the one its declaration says, whichever body needed it first.

## Main definitions

* `StackEscape.Tables.Valid` — all filed contracts have well placed annotations.
* `StackEscape.Tables.Exact` — all filed contracts are those of the declarations.

## Main results

* `StackEscape.Program.DistinctKeys.apart` — distinct keys keep apart what a body needs.
* `StackEscape.Tables.Valid.steps`, `Exact.steps` — walks keep both invariants.
-/

set_option autoImplicit false

namespace StackEscape

/-! ## Distinct keys -/

namespace Program.DistinctKeys

variable {p : Program} {m m' : Member} {d d' : FnDecl}

/-- A member is known by its key. -/
theorem member_eq (h : p.DistinctKeys) (hm : m ∈ p.members) (hm' : m' ∈ p.members)
    (hk : m.key = m'.key) : m = m' := by
  have hnd : (p.members.map Member.key).Nodup :=
    (List.nodup_append.1 (List.nodup_append.1 h).2.1).1
  exact List.inj_on_of_nodup_map hnd hm hm' hk

/-- The key of a local function is one of the program's. -/
theorem localKey_mem (hm : m ∈ p.members) (hd : d ∈ m.localFunctions) :
    m.localKey d ∈ p.localKeys :=
  List.mem_flatMap.2 ⟨m, hm, List.mem_map_of_mem hd⟩

/-- No local function has the key of a member. -/
theorem localKey_not_mem_memberKeys (h : p.DistinctKeys) {k : String} (hk : k ∈ p.localKeys) :
    k ∉ p.memberKeys := fun hmem =>
  (List.nodup_append.1 (List.nodup_append.1 h).2.1).2.2 k hmem k hk rfl

/-- No local function has the key of a type. -/
theorem localKey_not_mem_typeNames (h : p.DistinctKeys) {k : String} (hk : k ∈ p.localKeys) :
    k ∉ p.typeNames := fun hmem =>
  (List.nodup_append.1 h).2.2 k (List.mem_dedup.2 hmem) k (List.mem_append_right _ hk) rfl

/-- The member that has a local function is known by the local function's key. -/
theorem owner_eq (h : p.DistinctKeys) (hm : m ∈ p.members) (hm' : m' ∈ p.members) {k : String}
    (hk : k ∈ m.localKeys) (hk' : k ∈ m'.localKeys) : m = m' := by
  have hnd : (p.members.flatMap Member.localKeys).Nodup :=
    (List.nodup_append.1 (List.nodup_append.1 h).2.1).2.1
  have : Std.Symm (Function.onFun List.Disjoint Member.localKeys) :=
    ⟨fun _ _ hdisj => hdisj.symm⟩
  by_contra hne
  exact (List.nodup_flatMap.1 hnd).2.forall hm hm' hne hk hk'

/-- No two local functions of a member share a key. -/
theorem nodup_localKeys (h : p.DistinctKeys) (hm : m ∈ p.members) : m.localKeys.Nodup := by
  have hnd : (p.members.flatMap Member.localKeys).Nodup :=
    (List.nodup_append.1 (List.nodup_append.1 h).2.1).2.1
  exact (List.nodup_flatMap.1 hnd).1 m hm

/-- A local function is known by its key. -/
theorem localFunction_eq (h : p.DistinctKeys) (hm : m ∈ p.members) (hm' : m' ∈ p.members)
    (hd : d ∈ m.localFunctions) (hd' : d' ∈ m'.localFunctions)
    (hk : m.localKey d = m'.localKey d') : m = m' ∧ d = d' := by
  have hmem : m.localKey d ∈ m.localKeys := List.mem_map_of_mem hd
  have hmem' : m.localKey d ∈ m'.localKeys := hk ▸ List.mem_map_of_mem hd'
  obtain rfl := h.owner_eq hm hm' hmem hmem'
  exact ⟨rfl, List.inj_on_of_nodup_map (h.nodup_localKeys hm) hd hd' hk⟩

/-- Distinct keys keep apart what the walk over a member's body needs. -/
theorem apart (h : p.DistinctKeys) (hm : m ∈ p.members) (runtime : Bool) :
    Surroundings.Apart ⟨p, m, runtime⟩ where
  mem := hm
  members := fun _ hm₁ _ hm₂ hk => h.member_eq hm₁ hm₂ hk
  types := fun _ hk => h.localKey_not_mem_typeNames (List.mem_flatMap.2 ⟨m, hm, hk⟩)
  locals := fun _ hk => h.localKey_not_mem_memberKeys (List.mem_flatMap.2 ⟨m, hm, hk⟩)

end Program.DistinctKeys

/-! ## Well placed annotations -/

/-- All contracts that are filed have well placed annotations. -/
def Tables.Valid (T : Tables) : Prop := ∀ k c, T.contracts.get? k = some c → c.valid = true

/-- The contract of a declaration is valid if its annotations are well placed. -/
theorem Contract.valid_build {caps : Capabilities} {p : Program} {owner : TypeDecl} {decl : FnDecl}
    {key : String} {scope : GenericScope} {isLocal : Bool}
    (h : placementErrors owner decl key isLocal = []) :
    (Contract.build caps p owner decl key scope isLocal).valid = true := by
  simp [Contract.build, h]

/-- All members, and the local functions of the walked one, have well placed annotations. -/
structure Surroundings.WellPlaced (env : Surroundings) : Prop where
  /-- Annotations on members are well placed. -/
  members : ∀ m ∈ env.program.members, placementErrors m.owner m.decl m.key false = []
  /-- Annotations on local functions are well placed. -/
  locals : ∀ d ∈ env.member.localFunctions,
    placementErrors env.member.owner d (env.localKey d) true = []

namespace Tables.Valid

variable {T U : Tables}

/-- Obtaining a valid contract keeps the invariant. -/
theorem obtain (h : T.Valid) (key : String) {c : Contract} (hc : c.valid = true) :
    (T.contracts.obtain key c).1.valid = true ∧
      Tables.Valid { T with contracts := (T.contracts.obtain key c).2 } := by
  have hfirst : ((T.contracts.get? key).getD c).valid = true := by
    cases hk : T.contracts.get? key with
    | none => exact hc
    | some found => exact h key found hk
  refine ⟨by rw [Contracts.obtain_fst]; exact hfirst, ?_⟩
  intro k e he
  rw [Contracts.get?_obtain] at he
  split at he
  · obtain rfl := Option.some.inj he
    exact hfirst
  · exact h k e he

theorem step {env : Surroundings} (hw : env.WellPlaced) (h : T.Valid)
    (hstep : env.TableStep T U) : U.Valid := by
  cases hstep with
  | member hm => exact (h.obtain _ (Contract.valid_build (hw.members _ hm))).2
  | localFunction _ hd => exact (h.obtain _ (Contract.valid_build (hw.locals _ hd))).2
  | typeParams => exact h

/-- The walk over a body keeps all filed contracts valid. -/
theorem steps {env : Surroundings} (hw : env.WellPlaced) (h : T.Valid)
    (hsteps : Relation.ReflTransGen env.TableStep T U) : U.Valid := by
  induction hsteps with
  | refl => exact h
  | tail _ hstep ih => exact ih.step hw hstep

end Tables.Valid

/-! ## Contracts by their declarations -/

/-- In the body of a member whose local functions have no type parameters, names of type parameters
mean everywhere what they mean in the member. -/
theorem Surroundings.Inside.resolve_eq {env : Surroundings}
    (hplain : ∀ d ∈ env.member.localFunctions, d.typeParams = []) {g : GenericScope}
    (hg : env.Inside g) : g.resolve = env.member.innerScope.resolve := by
  induction hg with
  | member => rfl
  | localFunction _ hd ih =>
    rw [← ih]
    funext name
    simp [GenericScope.resolve, GenericScope.push, hplain _ hd]

/-- Types have the same capabilities where names of type parameters mean the same. -/
theorem Capabilities.stackOnly_of_resolve (caps : Capabilities) (p : Program)
    {g g' : GenericScope} (h : g.resolve = g'.resolve) :
    caps.stackOnly p g = caps.stackOnly p g' := by
  funext ty
  cases ty <;> simp only [Capabilities.stackOnly, Capabilities.of, Capabilities.ofParam, h]

/-- The contract of a local function without type parameters does not depend on where it is
built. -/
theorem Surroundings.Inside.build_eq {env : Surroundings}
    (hplain : ∀ d ∈ env.member.localFunctions, d.typeParams = []) {g : GenericScope}
    (hg : env.Inside g) (caps : Capabilities) {d : FnDecl} (hd : d ∈ env.member.localFunctions) :
    Contract.build caps env.program env.member.owner d (env.localKey d)
        (g.push (env.localKey d) d.typeParams) true =
      env.member.localContract caps env.program d := by
  have hstack := Capabilities.stackOnly_of_resolve caps env.program
    ((Surroundings.Inside.localFunction hg hd).resolve_eq hplain)
  simp only [Member.localContract, Contract.build, hstack]
  rfl

/-- The capabilities are those of the declarations, and all contracts that are filed are those that
their declarations say. -/
structure Tables.Exact (p : Program) (caps : Capabilities) (T : Tables) : Prop where
  /-- No capability was filed since. -/
  caps_eq : T.caps = caps
  /-- Contracts of members are theirs. -/
  member : ∀ m ∈ p.members, ∀ c, T.contracts.get? m.key = some c → c = Contract.ofMember caps p m
  /-- Contracts of local functions are theirs. -/
  localFunction : ∀ m ∈ p.members, ∀ d ∈ m.localFunctions, ∀ c,
    T.contracts.get? (m.localKey d) = some c → c = m.localContract caps p d

namespace Tables.Exact

variable {p : Program} {caps : Capabilities} {T U : Tables}

/-- In the beginning nothing is filed but capabilities. -/
theorem empty (p : Program) (caps : Capabilities) : Tables.Exact p caps ⟨caps, .empty⟩ :=
  ⟨rfl, by simp, by simp⟩

/-- The contract that is obtained for a member is its own, and the tables stay exact. -/
theorem obtainMember (h : T.Exact p caps) (hk : p.DistinctKeys) {m : Member} (hm : m ∈ p.members) :
    (T.contracts.obtain m.key (Contract.ofMember T.caps p m)).1 = Contract.ofMember caps p m ∧
      Tables.Exact p caps
        { T with contracts := (T.contracts.obtain m.key (Contract.ofMember T.caps p m)).2 } := by
  rw [h.caps_eq]
  have hfirst : (T.contracts.get? m.key).getD (Contract.ofMember caps p m) =
      Contract.ofMember caps p m := by
    cases hf : T.contracts.get? m.key with
    | none => rfl
    | some c => exact h.member m hm c hf
  refine ⟨by rw [Contracts.obtain_fst, hfirst], rfl, ?_, ?_⟩
  · intro m' hm' c hc
    rw [Contracts.get?_obtain] at hc
    by_cases hkey : m'.key = m.key
    · obtain rfl := hk.member_eq hm' hm hkey
      rw [if_pos rfl, hfirst] at hc
      exact (Option.some.inj hc).symm
    · rw [if_neg hkey] at hc
      exact h.member m' hm' c hc
  · intro m' hm' d hd c hc
    have hne : m'.localKey d ≠ m.key := fun e =>
      hk.localKey_not_mem_memberKeys (Program.DistinctKeys.localKey_mem hm' hd)
        (e ▸ List.mem_map_of_mem hm)
    rw [Contracts.get?_obtain, if_neg hne] at hc
    exact h.localFunction m' hm' d hd c hc

/-- The contract that is obtained for a local function is its own, and the tables stay exact. -/
theorem obtainLocal {m : Member} (h : T.Exact p caps) (hk : p.DistinctKeys) (hm : m ∈ p.members)
    {d : FnDecl} (hd : d ∈ m.localFunctions) {built : Contract}
    (hbuilt : built = m.localContract caps p d) :
    (T.contracts.obtain (m.localKey d) built).1 = m.localContract caps p d ∧
      Tables.Exact p caps
        { T with contracts := (T.contracts.obtain (m.localKey d) built).2 } := by
  subst hbuilt
  have hfirst : (T.contracts.get? (m.localKey d)).getD (m.localContract caps p d) =
      m.localContract caps p d := by
    cases hf : T.contracts.get? (m.localKey d) with
    | none => rfl
    | some c => exact h.localFunction m hm d hd c hf
  refine ⟨by rw [Contracts.obtain_fst, hfirst], h.caps_eq, ?_, ?_⟩
  · intro m' hm' c hc
    have hne : m'.key ≠ m.localKey d := fun e =>
      hk.localKey_not_mem_memberKeys (Program.DistinctKeys.localKey_mem hm hd)
        (e ▸ List.mem_map_of_mem hm')
    rw [Contracts.get?_obtain, if_neg hne] at hc
    exact h.member m' hm' c hc
  · intro m' hm' d' hd' c hc
    rw [Contracts.get?_obtain] at hc
    by_cases hkey : m'.localKey d' = m.localKey d
    · obtain ⟨rfl, rfl⟩ := hk.localFunction_eq hm' hm hd' hd hkey
      rw [if_pos rfl, hfirst] at hc
      exact (Option.some.inj hc).symm
    · rw [if_neg hkey] at hc
      exact h.localFunction m' hm' d' hd' c hc

theorem step {env : Surroundings} (hk : env.program.DistinctKeys)
    (hm : env.member ∈ env.program.members)
    (hplain : ∀ d ∈ env.member.localFunctions, d.typeParams = []) (h : T.Exact env.program caps)
    (hstep : env.TableStep T U) : U.Exact env.program caps := by
  cases hstep with
  | member hm' => exact (h.obtainMember hk hm').2
  | localFunction hg hd =>
    have hbuilt := hg.build_eq hplain T.caps hd
    exact (h.obtainLocal hk hm hd (hbuilt.trans (by rw [h.caps_eq]))).2
  | typeParams _ hd =>
    simp only [hplain _ hd, Capabilities.fillOwn, List.foldl_nil]
    exact h

/-- The walk over a body keeps the tables exact. -/
theorem steps {env : Surroundings} (hk : env.program.DistinctKeys)
    (hm : env.member ∈ env.program.members)
    (hplain : ∀ d ∈ env.member.localFunctions, d.typeParams = []) (h : T.Exact env.program caps)
    (hsteps : Relation.ReflTransGen env.TableStep T U) : U.Exact env.program caps := by
  induction hsteps with
  | refl => exact h
  | tail _ hstep ih => exact ih.step hk hm hplain hstep

end Tables.Exact

end StackEscape
