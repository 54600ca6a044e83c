import StackEscape.Proofs.Forwarding
import StackEscape.Proofs.Transparency

/-!
# The contract that a body is walked with

A body is walked with the contract that is filed under the key of its declaration. If no two
declarations share a key, that is the contract of this very declaration, and every parameter is bound
by what it promises. A local function is filed under its name alone, though: two of one name in blocks
side by side share the contract of the first one.

## Main definitions

* `StackEscape.WalkState.Bound` — every parameter is bound by what is promised of it.
* `StackEscape.Twins.program` — two local functions of one name.

## Main results

* `StackEscape.Walk.bound_bindParams` — parameters are bound by their promises.
* `StackEscape.Program.walked_with_own_contract` — bodies are walked with their own contracts.
* `StackEscape.Twins.walked_with_other_contract` — unless two of them share a key.
-/

set_option autoImplicit false

namespace StackEscape

/-! ## Binding parameters -/

/-- The second state is the first one with every parameter bound by what is promised of it. Some may be
given up, but not without an error. -/
def WalkState.Bound (params : List Param) (promise : Param → ParamContract) (s t : WalkState) :
    Prop :=
  ∃ infos errors, t = { s with ctx := s.ctx.declareAll infos, errors := s.errors ++ errors } ∧
    List.Forall₂ (fun q info => info = Walk.boundParam q (promise q) ∨
      info = { Walk.boundParam q (promise q) with pair := .invalid }) params infos ∧
    (errors = [] → infos = params.map fun q => Walk.boundParam q (promise q))

namespace WalkState.Bound

variable {promise : Param → ParamContract} {params : List Param} {q : Param} {s t u : WalkState}

theorem nil (s : WalkState) : Bound [] promise s s := ⟨[], [], by simp, .nil, fun _ => rfl⟩

/-- A parameter that is bound by its promise. -/
theorem own (q : Param) (s : WalkState) : Bound [q] promise s
    { s with ctx := s.ctx.declareAll [Walk.boundParam q (promise q)] } :=
  ⟨_, [], by rw [List.append_nil], .cons (.inl rfl) .nil, fun _ => rfl⟩

/-- A parameter that is given up with an error. -/
theorem givenUp (q : Param) (s : WalkState) {errors : List EscapeError} (h : errors ≠ []) :
    Bound [q] promise s
      { s with
        ctx := s.ctx.declareAll [{ Walk.boundParam q (promise q) with pair := .invalid }]
        errors := s.errors ++ errors } :=
  ⟨_, errors, rfl, .cons (.inr rfl) .nil, fun he => absurd he h⟩

/-- One parameter, and then some more. -/
theorem cons (h : Bound [q] promise s t) (hrest : Bound params promise t u) :
    Bound (q :: params) promise s u := by
  obtain ⟨infos, errors, rfl, hinfos, hown⟩ := h
  obtain ⟨infos', errors', rfl, hinfos', hown'⟩ := hrest
  refine ⟨infos ++ infos', errors ++ errors', by simp, List.rel_append hinfos hinfos', fun he => ?_⟩
  obtain ⟨he, he'⟩ := List.append_eq_nil_iff.1 he
  rw [hown he, hown' he', List.map_cons]
  rfl

end WalkState.Bound

namespace Walk

variable {env : Surroundings} {checkShapes : Bool} {promise : Param → ParamContract}

/-- A parameter of a well-formed type is bound by its promise. It is given up in an expression tree,
and where the function may be suspended. -/
theorem bound_bindParam_of_shape (q : Param) (s : WalkState) :
    s.Bound [q] promise ((bindParam env false q (promise q)).after s) := by
  unfold bindParam
  simp only [Bool.false_eq_true, if_false, Bool.not_true, pure_bind]
  rw [after_bind, after_get, answer_get]
  split
  · have herror : [EscapeError.mk (.expressionTree q.ty.display) q.span] ≠ [] :=
      List.cons_ne_nil _ _
    exact .givenUp q s herror
  · split
    · have herror : [EscapeError.mk (.asyncOrIteratorLocal q.name q.ty.display) q.span] ≠ [] :=
        List.cons_ne_nil _ _
      exact .givenUp q s herror
    · exact .own q s

/-- A parameter is bound by its promise, or given up with an error. -/
theorem bound_bindParam (q : Param) (s : WalkState) :
    s.Bound [q] promise ((bindParam env checkShapes q (promise q)).after s) := by
  cases checkShapes with
  | false => exact bound_bindParam_of_shape q s
  | true =>
    by_cases hshape : (s.types env).typeErrors q.span q.ty = []
    · obtain ⟨hanswer, hafter⟩ := run_checkShape hshape
      have hsame : (bindParam env true q (promise q)).after s =
          (bindParam env false q (promise q)).after s := by
        simp only [bindParam, if_true, after_bind, hanswer, hafter]
        rfl
      rw [hsame]
      exact bound_bindParam_of_shape q s
    · have hanswer : (checkShape env q.ty q.span).answer s = false := by
        change List.isEmpty _ = false
        simpa using hshape
      have hgiven : (bindParam env true q (promise q)).after s =
          { s with
            ctx := s.ctx.declareAll [{ boundParam q (promise q) with pair := .invalid }]
            errors := s.errors ++ ((s.types env).typeErrors q.span q.ty).map fun e =>
              ⟨.shape e.kind, e.span⟩ } := by
        simp only [bindParam, if_true, after_bind, hanswer]
        rfl
      rw [hgiven]
      exact .givenUp q s (by simpa using hshape)

/-- Parameters are bound by their promises. -/
theorem bound_bindParams (params : List Param) (s : WalkState) :
    s.Bound params promise
      ((bindParams env checkShapes params (params.map promise)).after s) := by
  induction params generalizing s with
  | nil => exact .nil s
  | cons q rest ih => exact (bound_bindParam q s).cons (ih _)

end Walk

/-! ## Distinct keys -/

namespace Program

variable {p : Program} {m : Member} {caps : Capabilities} {T : Tables}

/-- What the walks over bodies keep of the tables holds after the walks over some members. -/
theorem checkMembers_keeps {P : Tables → Prop} {runtime : Bool}
    (hsteps : ∀ m ∈ p.members, ∀ T U,
      Relation.ReflTransGen (Surroundings.TableStep ⟨p, m, runtime⟩) T U → P T → P U)
    (hT : P T) {ms : List Member} (hms : ms ⊆ p.members) : P (p.checkMembers runtime T ms).2 := by
  induction ms using List.reverseRecOn with
  | nil => exact hT
  | append_singleton ms m ih =>
    obtain ⟨hms, hm⟩ := List.append_subset.1 hms
    have hmem : m ∈ p.members := hm (List.mem_singleton_self m)
    rw [checkMembers_append_singleton]
    cases hbody : m.decl.body with
    | none => rw [checkMember_of_none hbody]; exact ih hms
    | some body =>
      rw [checkMember_of_some hbody]
      exact hsteps m hmem _ _ (walkMember_tables hmem hbody) (ih hms)

/-- Walks over members keep the tables exact. -/
theorem exact_checkMembers (hk : p.DistinctKeys) (hplain : p.PlainLocalFunctions) (runtime : Bool)
    (hT : T.Exact p caps) {ms : List Member} (hms : ms ⊆ p.members) :
    (p.checkMembers runtime T ms).2.Exact p caps :=
  checkMembers_keeps (P := fun T => T.Exact p caps)
    (fun m hm _ _ hsteps h => h.steps hk hm (hplain m hm) hsteps) hT hms

/-- If no two declarations share a key, every body is walked with the contract of its own
declaration, whatever was walked before, and every parameter is bound by its own promise. For a local
function this holds wherever the walk over the member comes to it. -/
theorem walked_with_own_contract (hk : p.DistinctKeys) (hplain : p.PlainLocalFunctions)
    (runtime : Bool) {before : List Member} (hbefore : before ⊆ p.members) (hm : m ∈ p.members) :
    let T := (p.checkMembers runtime (p.declaredTables runtime) before).2
    let caps := (p.declaredTables runtime).caps
    let env : Surroundings := ⟨p, m, runtime⟩
    let promise (q : Param) := ParamContract.ofParam q (caps.stackOnly p m.innerScope q.ty)
    (p.entryContract T m = Contract.ofMember caps p m ∧
      ∀ s, WalkState.Bound m.decl.params promise s ((p.bindMember runtime T m).after s)) ∧
    ∀ d ∈ m.localFunctions, ∀ s : WalkState, s.Placed env →
      Relation.ReflTransGen env.TableStep T s.tables →
      (Walk.localContract env d).answer s = m.localContract caps p d ∧
        ∀ s', WalkState.Bound d.params promise s' ((Walk.bindParams env true d.params
          ((Walk.localContract env d).answer s).params).after s') := by
  intro T caps env promise
  have hT : T.Exact p caps := exact_checkMembers hk hplain runtime (.empty p _) hbefore
  have hentry : p.entryContract T m = Contract.ofMember caps p m := (hT.obtainMember hk hm).1
  refine ⟨⟨hentry, ?_⟩, fun d hd s hs hsteps => ?_⟩
  · rw [bindMember, hentry]
    exact Walk.bound_bindParams m.decl.params
  · have hexact : s.tables.Exact p caps := hT.steps hk hm (hplain m hm) hsteps
    have hbuilt : s.localContract env d = m.localContract caps p d := by
      rw [WalkState.localContract, hexact.caps_eq]
      exact hs.generics.build_eq (hplain m hm) caps hd
    have hown : (Walk.localContract env d).answer s = m.localContract caps p d :=
      (hexact.obtainLocal hk hm hd hbuilt).1
    refine ⟨hown, ?_⟩
    rw [hown]
    exact Walk.bound_bindParams d.params

/-- The function `Keep` of the slots, after `Content` was walked, at its first statement, which declares
a local function. -/
theorem walked_with_own_contract_slots :
    let p := Slots.program
    let m : Member := ⟨Slots.decl, Slots.keep⟩
    let T := (p.checkMembers true (p.declaredTables true) [⟨Slots.decl, Slots.content⟩]).2
    let s := p.bodyEntry true T m (Slots.keep.body.getD [])
    p.DistinctKeys ∧ p.PlainLocalFunctions ∧ Slots.same ∈ m.localFunctions ∧
      p.entryContract T m = Contract.ofMember (p.declaredTables true).caps p m ∧
      (Walk.localContract ⟨p, m, true⟩ Slots.same).answer s =
        m.localContract (p.declaredTables true).caps p Slots.same := by
  intro p m T s
  have hk : p.DistinctKeys := by decide +kernel
  have hplain : p.PlainLocalFunctions := by decide +kernel
  have hbefore : [⟨Slots.decl, Slots.content⟩] ⊆ p.members :=
    List.cons_subset_cons _ (List.nil_subset _)
  have hm : m ∈ p.members := List.mem_cons_of_mem _ (List.mem_cons_self ..)
  have hd : Slots.same ∈ m.localFunctions := direct_of_body rfl _ (List.mem_cons_self ..)
  have hs : s.Placed ⟨p, m, true⟩ := placed_bodyEntry p true T rfl
  have hsteps : Relation.ReflTransGen (Surroundings.TableStep ⟨p, m, true⟩) T s.tables :=
    (Relation.ReflTransGen.single (.member hm T)).trans (progress_bindMember p true T m).tables
  obtain ⟨hentry, hlocals⟩ := walked_with_own_contract hk hplain true hbefore hm
  exact ⟨hk, hplain, hd, hentry.1, (hlocals _ hd s hs hsteps).1⟩

end Program

/-! ## Shared keys -/

/-- What is filed under a key stays, whichever declaration needs it later. -/
theorem Surroundings.TableStep.filed {env : Surroundings} {T U : Tables} {key : String}
    {c : Contract} (hstep : env.TableStep T U) (h : T.contracts.get? key = some c) :
    U.contracts.get? key = some c := by
  have hobtain (key' : String) (built : Contract) :
      (T.contracts.obtain key' built).2.get? key = some c := by
    rw [Contracts.get?_obtain]
    by_cases hkey : key = key'
    · subst hkey
      rw [if_pos rfl, h, Option.getD_some]
    · rw [if_neg hkey]
      exact h
  cases hstep with
  | member => exact hobtain _ _
  | localFunction => exact hobtain _ _
  | typeParams => exact h

/-- Once a contract is filed under the key of a local function, it is the one that the function is
walked with, even if it was built for another one. -/
theorem Walk.localContract_of_filed {env : Surroundings} {T : Tables} {s : WalkState} {d : FnDecl}
    {c : Contract} (h : T.contracts.get? (env.localKey d) = some c)
    (hsteps : Relation.ReflTransGen env.TableStep T s.tables) :
    (localContract env d).answer s = c := by
  have hfiled : s.tables.contracts.get? (env.localKey d) = some c := by
    generalize s.tables = U at hsteps
    induction hsteps with
    | refl => exact h
    | tail _ hstep ih => exact hstep.filed ih
  change (s.tables.contracts.obtain _ _).1 = c
  rw [Contracts.obtain_fst, hfiled, Option.getD_some]

namespace Twins

open Slots

/-- Returns what it is given. -/
def first : FnDecl := fn 5 "Pick" [slotParam "s" .none false] (.byValue slotTy)
  [⟨6, .ret (some (slotVar 7 "s")), .zero⟩]

/-- Returns what must not leave it, and has one more parameter. -/
def second : FnDecl :=
  fn 10 "Pick" [slotParam "s" .none true, ⟨"n", .int, .none, false, [], .zero⟩] (.byValue slotTy)
    [⟨11, .expr ⟨12, .var "n", .int, .zero⟩, .zero⟩, ⟨13, .ret (some (slotVar 14 "s")), .zero⟩]

/-- Two blocks with a local function each. -/
def run : FnDecl :=
  fn 3 "Run" [] (.byValue .void) [⟨4, .block [⟨8, .localFunction first, .zero⟩], .zero⟩,
    ⟨9, .block [⟨15, .localFunction second, .zero⟩], .zero⟩]

/-- The class of the function. -/
def decl : TypeDecl := ⟨2, "Twins", .classType, false, false, [], [], [], [], [run], .zero⟩

/-- A program with two local functions of one name. -/
def program : Program :=
  ⟨[⟨1, "Slot", .refStruct, false, false, [], [], [], [], [], .zero⟩, decl]⟩

/-- The second local function is walked with the contract of the first one: the second parameter is
not bound, and it is not noticed that the first one is `scoped`. -/
theorem walked_with_other_contract :
    let m : Member := ⟨decl, run⟩
    let own := m.localContract (program.declaredTables true).caps program
    (program.analyze {}).tables.contracts.get? (m.localKey second) = some (own first) ∧
      own first ≠ own second ∧
      (program.analyze {}).escapeErrors = [⟨.unresolvedMember "n", .zero⟩] := by
  decide +kernel

end Twins

end StackEscape
