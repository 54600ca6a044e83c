import Mathlib.Logic.Relation
import StackEscape.Analysis
import StackEscape.Proofs.Agreement
import StackEscape.Proofs.Sites

/-!
# What every walk keeps

Every walk over a part of a body leaves the scopes around it as they were, forgets no error and no
record, and files nothing in the shared tables but contracts of members and of its own local
functions and capabilities of their type parameters. What was filed for others has no influence on
it.

## Main definitions

* `StackEscape.Walk.answer`, `after` — what a walk yields from a state, and the state it ends in.
* `StackEscape.Surroundings.Inside` — the type parameters that can be in scope in a member's body.
* `StackEscape.Surroundings.TableStep` — what a walk does to the shared tables.
* `StackEscape.WalkState.Placed`, `Progress`, `Alike` — states within a member's body, a state that
  a walk leads to, and states that differ only in what was filed for others.
* `StackEscape.Walk.Proper` — walks that make progress and do not tell alike states apart.

## Main results

* `StackEscape.Walk.Proper.pure`, `bind`, `look` and the others — the basic steps of walks are
  proper, and so is what is composed of them.
-/

set_option autoImplicit false

namespace StackEscape

/-! ## Runs of walks -/

namespace Walk

variable {α β : Type}

/-- What a walk yields when it starts in a state. -/
def answer (m : Walk α) (s : WalkState) : α := (m.run s).1

/-- The state in which a walk ends. -/
def after (m : Walk α) (s : WalkState) : WalkState := (m.run s).2

@[simp] theorem after_pure (x : α) (s : WalkState) : after (pure x) s = s := rfl

@[simp] theorem answer_bind (m : Walk α) (f : α → Walk β) (s : WalkState) :
    answer (m >>= f) s = answer (f (answer m s)) (after m s) := rfl

@[simp] theorem after_bind (m : Walk α) (f : α → Walk β) (s : WalkState) :
    after (m >>= f) s = after (f (answer m s)) (after m s) := rfl

@[simp] theorem answer_get (s : WalkState) : answer (get : Walk WalkState) s = s := rfl

@[simp] theorem after_get (s : WalkState) : after (get : Walk WalkState) s = s := rfl

/-- File the capabilities of a local function's type parameters. -/
def fileTypeParams (env : Surroundings) (decl : FnDecl) : Walk Unit :=
  modify fun s => { s with tables := { s.tables with
    caps := s.tables.caps.fillOwn env.program (env.localKey decl) decl.typeParams s.generics } }

end Walk

/-! ## Contexts -/

namespace Context

/-- A scope once the innermost one is changed. -/
theorem mem_scopes_modifyTop {c : Context} {f : Scope → Scope} {scope : Scope}
    (h : scope ∈ (c.modifyTop f).scopes) :
    (∃ top ∈ c.scopes, scope = f top) ∨ scope ∈ c.scopes := by
  rcases c with ⟨_ | ⟨top, rest⟩, frames⟩
  · exact Or.inr h
  · rcases List.mem_cons.1 h with rfl | h
    · exact Or.inl ⟨top, List.mem_cons_self .., rfl⟩
    · exact Or.inr (List.mem_cons_of_mem _ h)

/-- Changing the innermost scope leaves it there. -/
theorem scopes_modifyTop_ne_nil {c : Context} (h : c.scopes ≠ []) (f : Scope → Scope) :
    (c.modifyTop f).scopes ≠ [] := by
  rcases c with ⟨_ | ⟨top, rest⟩, frames⟩
  · exact absurd rfl h
  · exact List.cons_ne_nil _ _

@[simp] theorem scopes_popScope (c : Context) : c.popScope.scopes = c.scopes.tail := by
  rcases c with ⟨_ | ⟨top, rest⟩, frames⟩ <;> rfl

/-- Declare some variables in the innermost scope. -/
def declareAll (c : Context) (infos : List LocalInfo) : Context :=
  c.modifyTop fun s => { s with locals := s.locals ++ infos }

/-- Declare some local functions in the innermost scope, one after the other. -/
def declareFunctions (c : Context) (decls : List FnDecl) : Context :=
  decls.foldl Context.declareFunction c

/-- The local functions by name, once some more are declared. -/
def functionTable (t : Table String FnDecl) (decls : List FnDecl) : Table String FnDecl :=
  decls.foldl (fun t d => t.set d.name d) t

@[simp] theorem declareAll_nil (c : Context) : c.declareAll [] = c := by
  rcases c with ⟨_ | ⟨s, rest⟩, frames⟩
  · rfl
  · simp [declareAll, modifyTop]

@[simp] theorem declareAll_declareAll (c : Context) (xs ys : List LocalInfo) :
    (c.declareAll xs).declareAll ys = c.declareAll (xs ++ ys) := by
  rcases c with ⟨_ | ⟨s, rest⟩, frames⟩
  · rfl
  · simp [declareAll, modifyTop]

@[simp] theorem frames_declareAll (c : Context) (infos : List LocalInfo) :
    (c.declareAll infos).frames = c.frames := by
  rcases c with ⟨_ | ⟨s, rest⟩, frames⟩ <;> rfl

@[simp] theorem inExpressionTree_declareAll (c : Context) (infos : List LocalInfo) :
    (c.declareAll infos).inExpressionTree = c.inExpressionTree := by
  rcases c with ⟨_ | ⟨s, rest⟩, frames⟩ <;> rfl

/-- Variables hide no local functions. -/
@[simp] theorem localFunction_declareAll (c : Context) (infos : List LocalInfo) (name : String) :
    (c.declareAll infos).localFunction name = c.localFunction name := by
  rcases c with ⟨_ | ⟨s, rest⟩, frames⟩ <;> rfl

theorem declareFunctions_eq (c : Context) (decls : List FnDecl) :
    c.declareFunctions decls =
      c.modifyTop fun s => { s with functions := functionTable s.functions decls } := by
  induction decls generalizing c with
  | nil => rcases c with ⟨_ | ⟨s, rest⟩, frames⟩ <;> rfl
  | cons d rest ih =>
    change (c.declareFunction d).declareFunctions rest = _
    rw [ih]
    rcases c with ⟨_ | ⟨s, rest⟩, frames⟩ <;> rfl

/-- The last local function of a name is the one that counts. -/
theorem get?_functionTable (t : Table String FnDecl) (decls : List FnDecl) (name : String) :
    (functionTable t decls).get? name =
      (decls.reverse.find? fun d => decide (d.name = name)).or (t.get? name) := by
  induction decls generalizing t with
  | nil => rfl
  | cons d rest ih =>
    change (functionTable (t.set d.name d) rest).get? name = _
    rw [ih, Table.get?_set, List.reverse_cons, List.find?_append, Option.or_assoc]
    congr 1
    by_cases h : d.name = name
    · simp [h]
    · have h' : ¬ name = d.name := fun e => h e.symm
      simp [h, h']

/-- Local functions of the innermost scope come first. -/
theorem localFunction_declareFunctions {c : Context} (h : c.scopes ≠ []) (decls : List FnDecl)
    (name : String) :
    (c.declareFunctions decls).localFunction name =
      (decls.reverse.find? fun d => decide (d.name = name)).or (c.localFunction name) := by
  rw [declareFunctions_eq]
  rcases c with ⟨_ | ⟨top, rest⟩, frames⟩
  · exact absurd rfl h
  · simp only [localFunction, modifyTop, List.findSome?_cons, get?_functionTable]
    cases decls.reverse.find? fun d => decide (d.name = name) <;> rfl

/-- Local functions hide no variables. -/
@[simp] theorem lookup_declareFunctions (c : Context) (decls : List FnDecl) (name : String) :
    (c.declareFunctions decls).lookup name = c.lookup name := by
  rw [declareFunctions_eq]
  rcases c with ⟨_ | ⟨s, rest⟩, frames⟩ <;> rfl

/-- Local functions do not change the functions entered. -/
@[simp] theorem frames_declareFunctions (c : Context) (decls : List FnDecl) :
    (c.declareFunctions decls).frames = c.frames := by
  rw [declareFunctions_eq]
  rcases c with ⟨_ | ⟨s, rest⟩, frames⟩ <;> rfl

/-- A scope is left as it was entered, whatever was declared in it. -/
theorem popScope_pushScope (c : Context) {kind : ScopeKind} (hk : kind.isFunction = false)
    (decls : List FnDecl) (infos : List LocalInfo) :
    (((c.pushScope kind).declareFunctions decls).declareAll infos).popScope = c := by
  rw [declareFunctions_eq]
  simp [pushScope, declareAll, modifyTop, popScope, hk]

/-- A nested function is left as it was entered, whatever was declared in it. -/
theorem popScope_pushFunction (c : Context) {kind : ScopeKind} (hk : kind.isFunction = true)
    (frame : FunctionFrame) (params : List LocalInfo) (decls : List FnDecl)
    (infos : List LocalInfo) :
    ((((c.pushFunction kind frame).declareAll params).declareFunctions decls).declareAll
      infos).popScope = c := by
  rw [declareFunctions_eq]
  simp [pushFunction, pushScope, declareAll, modifyTop, popScope, hk]

end Context

namespace Walk

/-- The local functions of a block are declared in its scope. -/
theorem after_declareFunctions (stmts : List Stmt) (s : WalkState) :
    after (declareFunctions stmts) s =
      { s with ctx := s.ctx.declareFunctions (directFunctions stmts) } := by
  induction stmts generalizing s with
  | nil => rfl
  | cons x rest ih =>
    rcases x with ⟨id, kind, span⟩
    cases kind with
    | localFunction d =>
      change after (declareFunctions rest) { s with ctx := s.ctx.declareFunction d } = _
      rw [ih]
      rfl
    | _ =>
      change after (declareFunctions rest) s = _
      rw [ih]
      rfl

end Walk

/-! ## Surroundings -/

/-- What is under a key once a contract was obtained. -/
theorem Contracts.get?_obtain (t : Contracts) (key k : String) (c : Contract) :
    (t.obtain key c).2.get? k = if k = key then some ((t.get? key).getD c) else t.get? k := by
  unfold Contracts.obtain
  cases hk : t.get? key with
  | some found =>
    by_cases h : k = key
    · subst h; simp [hk]
    · simp [h]
  | none => simp only [Table.get?_keep, hk, Option.getD_none]

namespace Surroundings

/-- The type parameters that can be in scope in the body of the walked member: its own, and those of
the local functions entered. -/
inductive Inside (env : Surroundings) : GenericScope → Prop
  /-- Outside of all local functions. -/
  | member : Inside env env.member.innerScope
  /-- Inside of one more local function. -/
  | localFunction {g : GenericScope} {d : FnDecl} (hg : Inside env g)
      (hd : d ∈ env.member.localFunctions) :
      Inside env (g.push (env.localKey d) d.typeParams)

/-- The declarations whose type parameters matter to the body of the walked member: all types and
members, and its own local functions. -/
def Owner (env : Surroundings) (k : String) : Prop :=
  k ∈ env.program.typeNames ∨ k ∈ env.program.memberKeys ∨ k ∈ env.member.localKeys

/-- The keys that matter to the body of the walked member are kept apart. -/
structure Apart (env : Surroundings) : Prop where
  /-- The walked member is one of the program. -/
  mem : env.member ∈ env.program.members
  /-- No two members share a key. -/
  members : ∀ m ∈ env.program.members, ∀ m' ∈ env.program.members, m.key = m'.key → m = m'
  /-- No local function has the key of a type. -/
  types : ∀ k ∈ env.member.localKeys, k ∉ env.program.typeNames
  /-- No local function has the key of a member. -/
  locals : ∀ k ∈ env.member.localKeys, k ∉ env.program.memberKeys

theorem localKey_mem {env : Surroundings} {d : FnDecl} (hd : d ∈ env.member.localFunctions) :
    env.localKey d ∈ env.member.localKeys := List.mem_map_of_mem hd

theorem owner_key {env : Surroundings} {m : Member} (hm : m ∈ env.program.members) :
    env.Owner m.key := Or.inr (Or.inl (List.mem_map_of_mem hm))

theorem owner_localKey {env : Surroundings} {d : FnDecl} (hd : d ∈ env.member.localFunctions) :
    env.Owner (env.localKey d) := Or.inr (Or.inr (localKey_mem hd))

/-- The type of a member is one of the program. -/
theorem typeName_mem {p : Program} {m : Member} (hm : m ∈ p.members) :
    m.owner.name ∈ p.typeNames := by
  simp only [Program.members, List.mem_flatMap, List.mem_map] at hm
  obtain ⟨t, ht, d, _, rfl⟩ := hm
  exact List.mem_map_of_mem ht

/-- All type parameters that can be in scope belong to declarations that matter. -/
theorem Inside.ownedBy {env : Surroundings} (hm : env.member ∈ env.program.members)
    {g : GenericScope} (hg : env.Inside g) : g.OwnedBy env.Owner := by
  induction hg with
  | member => exact Member.ownedBy_innerScope (owner_key hm) (Or.inl (typeName_mem hm))
  | localFunction _ hd ih => exact ih.push (owner_localKey hd) _

/-- What a walk over the body of the member does to the shared tables: one contract or the
capabilities of one declaration are filed at a time. -/
inductive TableStep (env : Surroundings) : Tables → Tables → Prop
  /-- The contract of a member is obtained. -/
  | member {m : Member} (hm : m ∈ env.program.members) (T : Tables) :
      TableStep env T { T with
        contracts := (T.contracts.obtain m.key (Contract.ofMember T.caps env.program m)).2 }
  /-- The contract of a local function is obtained. -/
  | localFunction {g : GenericScope} {d : FnDecl} (hg : env.Inside g)
      (hd : d ∈ env.member.localFunctions) (T : Tables) :
      TableStep env T { T with
        contracts := (T.contracts.obtain (env.localKey d) (Contract.build T.caps env.program
          env.member.owner d (env.localKey d) (g.push (env.localKey d) d.typeParams) true)).2 }
  /-- The capabilities of a local function's type parameters are filed. -/
  | typeParams {g : GenericScope} {d : FnDecl} (hg : env.Inside g)
      (hd : d ∈ env.member.localFunctions) (T : Tables) :
      TableStep env T { T with
        caps := T.caps.fillOwn env.program (env.localKey d) d.typeParams g }

end Surroundings

/-! ## States -/

/-- The state is one within the body of the walked member. -/
structure WalkState.Placed (env : Surroundings) (s : WalkState) : Prop where
  /-- The type parameters in scope are those of the member and of its local functions. -/
  generics : env.Inside s.generics
  /-- The local functions in scope are those of the member. -/
  functions : ∀ scope ∈ s.ctx.scopes, ∀ name d, scope.functions.get? name = some d →
    d ∈ env.member.localFunctions

namespace WalkState

/-- A later state at the same depth: more may be declared, reported, recorded and filed. -/
structure Progress (env : Surroundings) (s t : WalkState) : Prop where
  /-- The names in scope are the same but for some more variables. -/
  context : ∃ infos, t.ctx = s.ctx.declareAll infos
  /-- The type parameters in scope are the same. -/
  generics : t.generics = s.generics
  /-- All errors are kept. -/
  errors : ∃ errors, t.errors = s.errors ++ errors
  /-- No expression loses its record. -/
  recorded : ∀ id, (s.facts.pair? id).isSome → (t.facts.pair? id).isSome
  /-- Contracts and capabilities are filed. -/
  tables : Relation.ReflTransGen env.TableStep s.tables t.tables

namespace Progress

variable {env : Surroundings} {s t u : WalkState}

theorem refl (env : Surroundings) (s : WalkState) : Progress env s s :=
  ⟨⟨[], by simp⟩, rfl, ⟨[], by simp⟩, fun _ h => h, .refl⟩

theorem trans (h : Progress env s t) (h' : Progress env t u) : Progress env s u := by
  obtain ⟨xs, hx⟩ := h.context
  obtain ⟨ys, hy⟩ := h'.context
  obtain ⟨es, he⟩ := h.errors
  obtain ⟨fs, hf⟩ := h'.errors
  exact ⟨⟨xs ++ ys, by rw [hy, hx, Context.declareAll_declareAll]⟩, h'.generics.trans h.generics,
    ⟨es ++ fs, by rw [hf, he, List.append_assoc]⟩, fun id hid => h'.recorded id (h.recorded id hid),
    h.tables.trans h'.tables⟩

/-- If there is no error later, there was none before. -/
theorem errors_eq_nil (h : Progress env s t) (ht : t.errors = []) : s.errors = [] := by
  obtain ⟨es, he⟩ := h.errors
  rw [he] at ht
  exact (List.append_eq_nil_iff.1 ht).1

/-- There is still a scope to declare variables in. -/
theorem scopes_ne_nil (h : Progress env s t) (hs : s.ctx.scopes ≠ []) : t.ctx.scopes ≠ [] := by
  obtain ⟨infos, hc⟩ := h.context
  rw [hc]
  exact Context.scopes_modifyTop_ne_nil hs _

/-- A later state is still one within the body. -/
theorem placed (h : Progress env s t) (hs : s.Placed env) : t.Placed env := by
  obtain ⟨infos, hc⟩ := h.context
  refine ⟨h.generics ▸ hs.generics, ?_⟩
  intro scope hmem name d hd
  rw [hc] at hmem
  rcases Context.mem_scopes_modifyTop hmem with ⟨top, htop, rfl⟩ | hmem
  · exact hs.functions top htop name d hd
  · exact hs.functions scope hmem name d hd

end Progress

end WalkState

/-! ## States that are alike -/

namespace Tables

/-- What is filed under keys of members are the contracts of those members. -/
def MembersPure (p : Program) (T : Tables) : Prop :=
  ∀ m ∈ p.members, ∀ c, T.contracts.get? m.key = some c → c = Contract.ofMember T.caps p m

/-- The tables differ only in what was filed for other members' local functions, and in which
contracts of members were needed so far. -/
structure Alike (env : Surroundings) (T U : Tables) : Prop where
  /-- The same is known of all type parameters that matter. -/
  caps : T.caps.Agree env.Owner U.caps
  /-- The same contracts of the walked member's local functions are filed. -/
  locals : ∀ k ∈ env.member.localKeys, T.contracts.get? k = U.contracts.get? k
  /-- Contracts of members are right in the first tables. -/
  left : T.MembersPure env.program
  /-- Contracts of members are right in the second tables. -/
  right : U.MembersPure env.program

end Tables

/-- The states differ only in what was filed for other members. -/
structure WalkState.Alike (env : Surroundings) (s t : WalkState) : Prop where
  /-- The states are within the body. -/
  placed : s.Placed env
  /-- The same names are in scope. -/
  ctx : s.ctx = t.ctx
  /-- The same type parameters are in scope. -/
  generics : s.generics = t.generics
  /-- The same facts were found. -/
  facts : s.facts = t.facts
  /-- The same errors were found. -/
  errors : s.errors = t.errors
  /-- The tables are alike. -/
  tables : s.tables.Alike env t.tables

namespace Tables.MembersPure

variable {p : Program} {T : Tables}

/-- The contract that is obtained for a member is its own. -/
theorem obtain_eq (h : T.MembersPure p) {m : Member} (hm : m ∈ p.members) :
    (T.contracts.obtain m.key (Contract.ofMember T.caps p m)).1 = Contract.ofMember T.caps p m := by
  rw [Contracts.obtain_fst]
  cases hc : T.contracts.get? m.key with
  | none => rfl
  | some c => exact h m hm c hc

/-- Contracts of members stay right when one of them is obtained. -/
theorem obtainMember (h : T.MembersPure p)
    (hinj : ∀ m ∈ p.members, ∀ m' ∈ p.members, m.key = m'.key → m = m') {m : Member}
    (hm : m ∈ p.members) :
    MembersPure p { T with
      contracts := (T.contracts.obtain m.key (Contract.ofMember T.caps p m)).2 } := by
  intro m' hm' c hc
  rw [Contracts.get?_obtain] at hc
  by_cases hk : m'.key = m.key
  · obtain rfl := hinj m' hm' m hm hk
    rw [if_pos rfl, ← Contracts.obtain_fst, h.obtain_eq hm, Option.some.injEq] at hc
    exact hc.symm
  · rw [if_neg hk] at hc
    exact h m' hm' c hc

/-- Contracts of members stay right when something is filed under another key. -/
theorem obtainOther (h : T.MembersPure p) {key : String} (hk : key ∉ p.memberKeys)
    (built : Contract) :
    MembersPure p { T with contracts := (T.contracts.obtain key built).2 } := by
  intro m hm c hc
  have hne : m.key ≠ key := fun e => hk (e ▸ List.mem_map_of_mem hm)
  rw [Contracts.get?_obtain, if_neg hne] at hc
  exact h m hm c hc

/-- Contracts of members stay right when capabilities of something else are filed. -/
theorem fillOther (h : T.MembersPure p) {key : String} (hk : key ∉ p.memberKeys)
    (ht : key ∉ p.typeNames) (params : List TypeParam) (scope : GenericScope) :
    MembersPure p { T with caps := T.caps.fillOwn p key params scope } := by
  intro m hm c hc
  have hagree : T.caps.Agree (· ≠ key) (T.caps.fillOwn p key params scope) :=
    fun k hne => (Capabilities.get?_fillOwn_of_ne hne T.caps params).symm
  have hmk : m.key ≠ key := fun e => hk (e ▸ List.mem_map_of_mem hm)
  have hmt : m.owner.name ≠ key := fun e => ht (e ▸ Surroundings.typeName_mem hm)
  rw [h m hm c hc]
  exact hagree.ofMember_eq hmk hmt

end Tables.MembersPure

namespace Tables.Alike

variable {env : Surroundings} {T U : Tables}

/-- The contract obtained for a member is the same, and the tables stay alike. -/
theorem obtainMember (h : T.Alike env U) (hk : env.Apart) {m : Member}
    (hm : m ∈ env.program.members) :
    (T.contracts.obtain m.key (Contract.ofMember T.caps env.program m)).1 =
        (U.contracts.obtain m.key (Contract.ofMember U.caps env.program m)).1 ∧
      Tables.Alike env
        { T with
          contracts := (T.contracts.obtain m.key (Contract.ofMember T.caps env.program m)).2 }
        { U with
          contracts := (U.contracts.obtain m.key (Contract.ofMember U.caps env.program m)).2 } := by
  have hsame : Contract.ofMember T.caps env.program m = Contract.ofMember U.caps env.program m :=
    h.caps.ofMember_eq (Surroundings.owner_key hm) (Or.inl (Surroundings.typeName_mem hm))
  refine ⟨by rw [h.left.obtain_eq hm, h.right.obtain_eq hm, hsame], h.caps, ?_,
    h.left.obtainMember hk.members hm, h.right.obtainMember hk.members hm⟩
  intro k hmem
  have hne : k ≠ m.key := fun e => hk.locals k hmem (e ▸ List.mem_map_of_mem hm)
  simp only [Contracts.get?_obtain, if_neg hne]
  exact h.locals k hmem

/-- The contract obtained for a local function is the same, and the tables stay alike. -/
theorem obtainLocal (h : T.Alike env U) (hk : env.Apart) {d : FnDecl}
    (hd : d ∈ env.member.localFunctions) {g : GenericScope} (hg : env.Inside g) :
    let built (caps : Capabilities) : Contract := Contract.build caps env.program env.member.owner d
      (env.localKey d) (g.push (env.localKey d) d.typeParams) true
    (T.contracts.obtain (env.localKey d) (built T.caps)).1 =
        (U.contracts.obtain (env.localKey d) (built U.caps)).1 ∧
      Tables.Alike env
        { T with contracts := (T.contracts.obtain (env.localKey d) (built T.caps)).2 }
        { U with contracts := (U.contracts.obtain (env.localKey d) (built U.caps)).2 } := by
  intro built
  have hmem := Surroundings.localKey_mem hd
  have hsame : built T.caps = built U.caps :=
    h.caps.build_eq ((Surroundings.Inside.localFunction hg hd).ownedBy hk.mem) _ _ _ _
  have hfound := h.locals _ hmem
  refine ⟨by rw [Contracts.obtain_fst, Contracts.obtain_fst, hsame, hfound], h.caps, ?_,
    h.left.obtainOther (hk.locals _ hmem) _, h.right.obtainOther (hk.locals _ hmem) _⟩
  intro k hkmem
  simp only [Contracts.get?_obtain, hfound, hsame, h.locals k hkmem]

/-- The tables stay alike when the capabilities of a local function are filed in both. -/
theorem fillLocal (h : T.Alike env U) (hk : env.Apart) {d : FnDecl}
    (hd : d ∈ env.member.localFunctions) {g : GenericScope} (hg : env.Inside g) :
    Tables.Alike env
      { T with caps := T.caps.fillOwn env.program (env.localKey d) d.typeParams g }
      { U with caps := U.caps.fillOwn env.program (env.localKey d) d.typeParams g } := by
  have hmem := Surroundings.localKey_mem hd
  have hm := hk.locals _ hmem
  have ht := hk.types _ hmem
  exact ⟨h.caps.fillOwn (hg.ownedBy hk.mem) _ _, h.locals, h.left.fillOther hm ht _ _,
    h.right.fillOther hm ht _ _⟩

end Tables.Alike

namespace WalkState.Alike

variable {env : Surroundings} {s t : WalkState}

/-- Types have the same capabilities. -/
theorem capability_eq (h : s.Alike env t) (hk : env.Apart) :
    (s.types env).capability = (t.types env).capability := by
  have hs : s.tables.caps.of env.program s.generics = t.tables.caps.of env.program s.generics :=
    h.tables.caps.of_eq (h.placed.generics.ownedBy hk.mem)
  funext ty
  simp only [TypeEnv.capability, WalkState.types, ← h.generics, hs]

theorem stackOnly_eq (h : s.Alike env t) (hk : env.Apart) :
    (s.types env).stackOnly = (t.types env).stackOnly :=
  TypeEnv.stackOnly_congr (h.capability_eq hk)

theorem typeErrors_eq (h : s.Alike env t) (hk : env.Apart) (span : Span) (ty : TypeRef) :
    (s.types env).typeErrors span ty = (t.types env).typeErrors span ty := by
  simp only [WalkState.types, ← h.generics]
  exact h.tables.caps.typeErrors_eq (h.placed.generics.ownedBy hk.mem) (fun _ hn => Or.inl hn) span
    ty

theorem allTypeErrors_eq (h : s.Alike env t) (hk : env.Apart) (span : Span) (tys : List TypeRef) :
    (s.types env).allTypeErrors span tys = (t.types env).allTypeErrors span tys := by
  simp only [WalkState.types, ← h.generics]
  exact h.tables.caps.allTypeErrors_eq (h.placed.generics.ownedBy hk.mem) (fun _ hn => Or.inl hn)
    span tys

theorem argErrors_eq (h : s.Alike env t) (hk : env.Apart) {owner : String} (ho : env.Owner owner)
    (generic : String) (params : List TypeParam) (args : List TypeRef) (span : Span) :
    (s.types env).argErrors generic owner params args span =
      (t.types env).argErrors generic owner params args span := by
  simp only [WalkState.types, ← h.generics]
  exact h.tables.caps.argErrors_eq (h.placed.generics.ownedBy hk.mem) ho generic params args span

theorem fieldPair_eq (h : s.Alike env t) (hk : env.Apart) :
    (s.types env).fieldPair = (t.types env).fieldPair :=
  TypeEnv.fieldPair_congr rfl (h.capability_eq hk)

theorem forbidsLocals_eq (h : s.Alike env t) : s.forbidsLocals = t.forbidsLocals := by
  simp only [WalkState.forbidsLocals, h.ctx]

theorem thisPair_eq (h : s.Alike env t) : s.thisPair = t.thisPair := by
  simp only [WalkState.thisPair, h.ctx]

theorem target?_eq (h : s.Alike env t) (r : MemberRef) : s.target? env r = t.target? env r := by
  simp only [WalkState.target?, h.ctx]

/-- States stay alike when the names in scope, the facts and the errors change in the same way. -/
theorem congr (h : s.Alike env t) {s' t' : WalkState} (hctx : s'.ctx = t'.ctx)
    (hg : s'.generics = s.generics) (hg' : t'.generics = t.generics) (hf : s'.facts = t'.facts)
    (he : s'.errors = t'.errors) (ht : s'.tables = s.tables) (ht' : t'.tables = t.tables)
    (hp : s'.Placed env) : s'.Alike env t' :=
  ⟨hp, hctx, by rw [hg, hg', h.generics], hf, he, by rw [ht, ht']; exact h.tables⟩

end WalkState.Alike

/-! ## Entering and leaving scopes -/

namespace WalkState.Placed

variable {env : Surroundings} {s : WalkState}

/-- Entering a scope stays within the body. -/
theorem pushScope (h : s.Placed env) (kind : ScopeKind) (frames : List FunctionFrame) :
    WalkState.Placed env { s with ctx := (⟨s.ctx.scopes, frames⟩ : Context).pushScope kind } := by
  refine ⟨h.generics, ?_⟩
  intro scope hmem name d hd
  rcases List.mem_cons.1 hmem with rfl | hmem
  · simp at hd
  · exact h.functions scope hmem name d hd

/-- Declaring local functions of the member stays within the body. -/
theorem declareFunctions (h : s.Placed env) {decls : List FnDecl}
    (hd : ∀ d ∈ decls, d ∈ env.member.localFunctions) :
    WalkState.Placed env { s with ctx := s.ctx.declareFunctions decls } := by
  refine ⟨h.generics, ?_⟩
  intro scope hmem name d hfound
  change scope ∈ (s.ctx.declareFunctions decls).scopes at hmem
  rw [Context.declareFunctions_eq] at hmem
  rcases Context.mem_scopes_modifyTop hmem with ⟨top, htop, rfl⟩ | hmem
  · rw [Context.get?_functionTable, Option.or_eq_some_iff] at hfound
    rcases hfound with hfound | ⟨_, hfound⟩
    · exact hd d (List.mem_reverse.1 (List.mem_of_find?_eq_some hfound))
    · exact h.functions top htop name d hfound
  · exact h.functions scope hmem name d hfound

/-- Entering a local function stays within the body. -/
theorem localScope (h : s.Placed env) {d : FnDecl} (hd : d ∈ env.member.localFunctions) :
    WalkState.Placed env { s with generics := s.localScope env d } :=
  ⟨.localFunction h.generics hd, h.functions⟩

end WalkState.Placed

namespace WalkState

/-- The state inside of a scope with the local functions of some statements. -/
def inBlock (s : WalkState) (kind : ScopeKind) (stmts : List Stmt) : WalkState :=
  { s with ctx := (s.ctx.pushScope kind).declareFunctions (directFunctions stmts) }

/-- The state inside of a nested function. -/
def inFunction (s : WalkState) (kind : ScopeKind) (frame : FunctionFrame) : WalkState :=
  { s with ctx := s.ctx.pushFunction kind frame }

/-- The state with the local functions of some statements. -/
def withFunctions (s : WalkState) (stmts : List Stmt) : WalkState :=
  { s with ctx := s.ctx.declareFunctions (directFunctions stmts) }

/-- The state outside of the innermost scope. -/
def leave (s : WalkState) : WalkState := { s with ctx := s.ctx.popScope }

/-- Alike states stay so when the local functions of a block are declared. -/
theorem Alike.withFunctions {env : Surroundings} {s t : WalkState} (h : s.Alike env t)
    {stmts : List Stmt} (hd : ∀ d ∈ directFunctions stmts, d ∈ env.member.localFunctions) :
    (s.withFunctions stmts).Alike env (t.withFunctions stmts) :=
  h.congr (congrArg (fun c : Context => c.declareFunctions (directFunctions stmts)) h.ctx) rfl rfl
    h.facts h.errors rfl rfl (h.placed.declareFunctions hd)

end WalkState

theorem Walk.after_inScope (kind : ScopeKind) (stmts : List Stmt) (body : Walk Unit)
    (s : WalkState) :
    after (inScope kind (declareFunctions stmts >>= fun _ => body)) s =
      (after body (s.inBlock kind stmts)).leave := by
  change after (modifyContext Context.popScope) (after body (after (declareFunctions stmts)
    { s with ctx := s.ctx.pushScope kind })) = _
  rw [after_declareFunctions]
  rfl

theorem Walk.after_inFunction (kind : ScopeKind) (frame : FunctionFrame) (stmts : List Stmt)
    (params body : Walk Unit) (s : WalkState) :
    after (inFunction kind frame (params >>= fun _ => declareFunctions stmts >>= fun _ => body)) s =
      (after body ((after params (s.inFunction kind frame)).withFunctions stmts)).leave := by
  change after (modifyContext Context.popScope) (after body (after (declareFunctions stmts)
    (after params (s.inFunction kind frame)))) = _
  rw [after_declareFunctions]
  rfl

/-! ## Proper walks -/

/-- The walk only leads to later states at the same depth, and does not tell alike states apart. -/
structure Walk.Proper (env : Surroundings) {α : Type} (m : Walk α) : Prop where
  /-- It ends in a later state. -/
  progress : ∀ s : WalkState, s.Placed env → s.Progress env (m.after s)
  /-- It yields the same from states that are alike, and ends in states that are alike. -/
  alike : env.Apart → ∀ s t : WalkState, s.Alike env t →
    m.answer s = m.answer t ∧ (m.after s).Alike env (m.after t)

namespace Walk.Proper

variable {env : Surroundings} {α β : Type}

theorem pure (x : α) : Proper env (Pure.pure x : Walk α) :=
  ⟨fun s _ => .refl env s, fun _ _ _ h => ⟨rfl, h⟩⟩

theorem bind {m : Walk α} {f : α → Walk β} (hm : Proper env m) (hf : ∀ x, Proper env (f x)) :
    Proper env (m >>= f) := by
  refine ⟨fun s hs => ?_, fun hk s t h => ?_⟩
  · have hp := hm.progress s hs
    exact hp.trans ((hf _).progress _ (hp.placed hs))
  · obtain ⟨hx, hafter⟩ := hm.alike hk s t h
    rw [answer_bind, answer_bind, after_bind, after_bind, hx]
    exact (hf _).alike hk _ _ hafter

/-- A walk may look at the state, but must not tell alike states apart. -/
theorem look {k : WalkState → Walk α}
    (same : env.Apart → ∀ s t : WalkState, s.Alike env t → k s = k t)
    (hk : ∀ s : WalkState, s.Placed env → Proper env (k s)) : Proper env (get >>= k) := by
  refine ⟨fun s hs => (hk s hs).progress s hs, fun ha s t h => ?_⟩
  change answer (k s) s = answer (k t) t ∧ (after (k s) s).Alike env (after (k t) t)
  rw [← same ha s t h]
  exact (hk s h.placed).alike ha s t h

/-- A change of the state that is progress and keeps states alike is a proper walk. -/
theorem changing {f : WalkState → WalkState}
    (hp : ∀ s : WalkState, s.Placed env → s.Progress env (f s))
    (ha : env.Apart → ∀ s t : WalkState, s.Alike env t → (f s).Alike env (f t)) :
    Proper env (modify f : Walk Unit) :=
  ⟨hp, fun hk s t h => ⟨rfl, ha hk s t h⟩⟩

theorem reportAll (errors : List EscapeError) : Proper env (Walk.reportAll errors) := by
  refine changing (fun s _ => ⟨⟨[], by simp⟩, rfl, ⟨errors, rfl⟩, fun _ h => h, .refl⟩) ?_
  intro _ s t h
  exact h.congr h.ctx rfl rfl h.facts (congrArg (· ++ errors) h.errors) rfl rfl
    ⟨h.placed.generics, h.placed.functions⟩

theorem record (id : NodeId) (pair : ScopePair) : Proper env (Walk.record id pair) := by
  refine changing (fun s _ => ⟨⟨[], by simp⟩, rfl, ⟨[], by simp⟩, ?_, .refl⟩) ?_
  · intro id' h
    change ((s.facts.pairs.set id pair).get? id').isSome
    rw [Table.get?_set]
    split
    · rfl
    · exact h
  · intro _ s t h
    exact h.congr h.ctx rfl rfl (congrArg (·.record id pair) h.facts) h.errors rfl rfl
      ⟨h.placed.generics, h.placed.functions⟩

theorem recordNullTest (id : NodeId) (test : NullTest) :
    Proper env (Walk.recordNullTest id test) := by
  refine changing (fun s _ => ⟨⟨[], by simp⟩, rfl, ⟨[], by simp⟩, fun _ h => h, .refl⟩) ?_
  intro _ s t h
  exact h.congr h.ctx rfl rfl (congrArg (·.recordNullTest id test) h.facts) h.errors rfl rfl
    ⟨h.placed.generics, h.placed.functions⟩

theorem noteCopy (span : Span) : Proper env (Walk.noteCopy span) := by
  refine changing (fun s _ => ⟨⟨[], by simp⟩, rfl, ⟨[], by simp⟩, fun _ h => h, .refl⟩) ?_
  intro _ s t h
  exact h.congr h.ctx rfl rfl (congrArg (·.noteCopy span) h.facts) h.errors rfl rfl
    ⟨h.placed.generics, h.placed.functions⟩

theorem declare (info : LocalInfo) : Proper env (Walk.declare info) := by
  have hp (s : WalkState) : s.Progress env { s with ctx := s.ctx.declare info } :=
    ⟨⟨[info], rfl⟩, rfl, ⟨[], by simp⟩, fun _ h => h, .refl⟩
  refine changing (fun s _ => hp s) ?_
  intro _ s t h
  exact h.congr (congrArg (·.declare info) h.ctx) rfl rfl h.facts h.errors rfl rfl
    ((hp s).placed h.placed)

theorem memberContract {m : Member} (hm : m ∈ env.program.members) :
    Proper env (Walk.memberContract env m) := by
  refine ⟨fun s _ => ⟨⟨[], by rw [Context.declareAll_nil]; rfl⟩, rfl,
    ⟨[], by rw [List.append_nil]; rfl⟩,
    fun _ h => h, .single (.member hm s.tables)⟩, fun hk s t h => ?_⟩
  obtain ⟨hsame, htables⟩ := h.tables.obtainMember hk hm
  exact ⟨hsame, ⟨h.placed.generics, h.placed.functions⟩, h.ctx, h.generics, h.facts, h.errors,
    htables⟩

theorem localContract {d : FnDecl} (hd : d ∈ env.member.localFunctions) :
    Proper env (Walk.localContract env d) := by
  refine ⟨fun s hs => ⟨⟨[], by rw [Context.declareAll_nil]; rfl⟩, rfl,
    ⟨[], by rw [List.append_nil]; rfl⟩,
    fun _ h => h, .single (.localFunction hs.generics hd s.tables)⟩, fun hk s t h => ?_⟩
  obtain ⟨hsame, htables⟩ := h.tables.obtainLocal hk hd h.placed.generics
  have ht : t.localContract env d = Contract.build t.tables.caps env.program env.member.owner d
      (env.localKey d) (s.generics.push (env.localKey d) d.typeParams) true := by
    rw [h.generics]; rfl
  change (s.tables.contracts.obtain _ (s.localContract env d)).1 =
      (t.tables.contracts.obtain _ (t.localContract env d)).1 ∧
    WalkState.Alike env
      { s with tables := { s.tables with
        contracts := (s.tables.contracts.obtain _ (s.localContract env d)).2 } }
      { t with tables := { t.tables with
        contracts := (t.tables.contracts.obtain _ (t.localContract env d)).2 } }
  rw [ht]
  exact ⟨hsame, ⟨h.placed.generics, h.placed.functions⟩, h.ctx, h.generics, h.facts, h.errors,
    htables⟩

theorem fileTypeParams {d : FnDecl} (hd : d ∈ env.member.localFunctions) :
    Proper env (Walk.fileTypeParams env d) := by
  refine changing (fun s hs => ⟨⟨[], by simp⟩, rfl, ⟨[], by simp⟩, fun _ h => h,
    .single (.typeParams hs.generics hd s.tables)⟩) ?_
  intro hk s t h
  refine ⟨⟨h.placed.generics, h.placed.functions⟩, h.ctx, h.generics, h.facts, h.errors, ?_⟩
  rw [← h.generics]
  exact h.tables.fillLocal hk hd h.placed.generics

/-! ## Walks in scopes of their own -/

/-- A block, or some other scope that no function begins with. -/
theorem inScope {kind : ScopeKind} (hkind : kind.isFunction = false) {stmts : List Stmt}
    (hd : ∀ d ∈ directFunctions stmts, d ∈ env.member.localFunctions) {body : Walk Unit}
    (hb : Proper env body) :
    Proper env (Walk.inScope kind (declareFunctions stmts >>= fun _ => body)) := by
  have henter {s : WalkState} (hs : s.Placed env) : (s.inBlock kind stmts).Placed env :=
    (hs.pushScope kind s.ctx.frames).declareFunctions hd
  have hprogress {s : WalkState} (hs : s.Placed env) :
      s.Progress env (after body (s.inBlock kind stmts)).leave := by
    have h := hb.progress _ (henter hs)
    obtain ⟨infos, hc⟩ := h.context
    refine ⟨⟨[], ?_⟩, h.generics, h.errors, h.recorded, h.tables⟩
    rw [Context.declareAll_nil, WalkState.leave, hc]
    exact s.ctx.popScope_pushScope hkind (directFunctions stmts) infos
  refine ⟨fun s hs => after_inScope kind stmts body s ▸ hprogress hs, fun hk s t h => ⟨rfl, ?_⟩⟩
  have halike : (s.inBlock kind stmts).Alike env (t.inBlock kind stmts) :=
    h.congr (congrArg (fun c : Context =>
      (c.pushScope kind).declareFunctions (directFunctions stmts)) h.ctx) rfl rfl h.facts h.errors
      rfl rfl (henter h.placed)
  have hb' := (hb.alike hk _ _ halike).2
  rw [after_inScope, after_inScope]
  exact hb'.congr (congrArg Context.popScope hb'.ctx) rfl rfl hb'.facts hb'.errors rfl rfl
    ((hprogress h.placed).placed h.placed)

/-- A nested function, given the walk over its parameters and the one over its body. -/
theorem inFunction {kind : ScopeKind} (hkind : kind.isFunction = true) (frame : FunctionFrame)
    {stmts : List Stmt} (hd : ∀ d ∈ directFunctions stmts, d ∈ env.member.localFunctions)
    {params body : Walk Unit} (hp : Proper env params) (hb : Proper env body) :
    Proper env (Walk.inFunction kind frame
      (params >>= fun _ => declareFunctions stmts >>= fun _ => body)) := by
  let bound (s : WalkState) : WalkState := after params (s.inFunction kind frame)
  have henter {s : WalkState} (hs : s.Placed env) : (s.inFunction kind frame).Placed env :=
    hs.pushScope kind (frame :: s.ctx.frames)
  have hbound {s : WalkState} (hs : s.Placed env) := hp.progress _ (henter hs)
  have hinside {s : WalkState} (hs : s.Placed env) : ((bound s).withFunctions stmts).Placed env :=
    ((hbound hs).placed (henter hs)).declareFunctions hd
  have hprogress {s : WalkState} (hs : s.Placed env) :
      s.Progress env (after body ((bound s).withFunctions stmts)).leave := by
    have hp' := hbound hs
    have hb' := hb.progress _ (hinside hs)
    obtain ⟨infos, hc⟩ := hp'.context
    obtain ⟨infos', hc'⟩ := hb'.context
    obtain ⟨es, he⟩ := hp'.errors
    obtain ⟨fs, hf⟩ := hb'.errors
    refine ⟨⟨[], ?_⟩, hb'.generics.trans hp'.generics, ⟨es ++ fs, ?_⟩,
      fun id hid => hb'.recorded id (hp'.recorded id hid), hp'.tables.trans hb'.tables⟩
    · rw [Context.declareAll_nil, WalkState.leave, hc']
      change (((bound s).ctx.declareFunctions _).declareAll infos').popScope = s.ctx
      rw [hc]
      exact s.ctx.popScope_pushFunction hkind frame infos (directFunctions stmts) infos'
    · change (after body ((bound s).withFunctions stmts)).errors = _
      rw [hf]
      change (bound s).errors ++ fs = _
      rw [he, List.append_assoc]
      rfl
  refine ⟨fun s hs => after_inFunction kind frame stmts params body s ▸ hprogress hs,
    fun hk s t h => ⟨rfl, ?_⟩⟩
  have h₁ : (s.inFunction kind frame).Alike env (t.inFunction kind frame) :=
    h.congr (congrArg (fun c : Context => c.pushFunction kind frame) h.ctx) rfl rfl h.facts
      h.errors rfl rfl (henter h.placed)
  have h₂ := (hp.alike hk _ _ h₁).2
  have h₃ : ((bound s).withFunctions stmts).Alike env ((bound t).withFunctions stmts) :=
    h₂.withFunctions hd
  have h₄ := (hb.alike hk _ _ h₃).2
  rw [after_inFunction, after_inFunction]
  exact h₄.congr (congrArg Context.popScope h₄.ctx) rfl rfl h₄.facts h₄.errors rfl rfl
    ((hprogress h.placed).placed h.placed)

/-- The inside of a local function, with its type parameters in scope. -/
theorem inLocalScope {d : FnDecl} (hd : d ∈ env.member.localFunctions)
    {body : WalkState → Walk Unit}
    (same : env.Apart → ∀ s t : WalkState, s.Alike env t → body s = body t)
    (hb : ∀ s : WalkState, s.Placed env → Proper env (body s)) :
    Proper env (get >>= fun s => withGenerics (s.localScope env d) (body s)) := by
  let enter (s : WalkState) : WalkState := { s with generics := s.localScope env d }
  have henter {s : WalkState} (hs : s.Placed env) : (enter s).Placed env := hs.localScope hd
  have hprogress {s : WalkState} (hs : s.Placed env) :
      s.Progress env { after (body s) (enter s) with generics := s.generics } := by
    have h := (hb s hs).progress _ (henter hs)
    exact ⟨h.context, rfl, h.errors, h.recorded, h.tables⟩
  refine ⟨fun s hs => hprogress hs, fun hk s t h => ⟨rfl, ?_⟩⟩
  have henters : (enter s).Alike env (enter t) := by
    refine ⟨henter h.placed, h.ctx, ?_, h.facts, h.errors, h.tables⟩
    change s.localScope env d = t.localScope env d
    simp only [WalkState.localScope, h.generics]
  have hb' := ((hb s h.placed).alike hk _ _ henters).2
  have hplaced := (hprogress h.placed).placed h.placed
  change WalkState.Alike env { after (body s) (enter s) with generics := s.generics }
    { after (body t) (enter t) with generics := t.generics }
  rw [← same hk s t h]
  exact ⟨hplaced, hb'.ctx, h.generics, hb'.facts, hb'.errors, hb'.tables⟩

end Walk.Proper

end StackEscape
