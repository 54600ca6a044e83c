import Mathlib
import StackEscape.Proofs.Filed
import StackEscape.Proofs.Accesses

/-!
# Members of type parameters

A reference to a member of a type parameter is resolved by the clause of a type parameter of that name.
Which type parameter a name means is said by the scope: the innermost one, those of the enclosing local
functions included. The clause that is searched is that one's as long as it belongs to the walked
member or to its type. Local functions are passed over: a type parameter of a local function is searched
by the clause of one further out that has the same name, or else has no members at all.

## Main definitions

* `StackEscape.Member.clauseOf?` — the clause of a type parameter that can be in scope in the member's
  body.
* `StackEscape.Program.memberByBounds?` — the member that a type parameter has by its clause.
* `StackEscape.WalkState.ResolvesTo` — what a reference resolves to; it is reported if that is nothing.

## Main results

* `StackEscape.Surroundings.clause?_eq` — the clause that is searched.
* `StackEscape.WalkState.resolves_by_clause` — what references to members of type parameters resolve to.
* `StackEscape.Hoppers.clause_passed_over` — clauses of local functions that would be the right ones.
-/

set_option autoImplicit false

namespace StackEscape

/-! ## Clauses -/

/-- The type parameters of the declaration of a key, if it can be in scope in the member's body: those
of the member, of its type, or of one of its local functions. -/
def Member.typeParamsOf (m : Member) (owner : String) : List TypeParam :=
  if owner = m.key then m.decl.typeParams
  else if owner = m.owner.name then m.owner.typeParams
  else ((m.localFunctions.find? fun d => decide (m.localKey d = owner)).map FnDecl.typeParams).getD []

/-- The clause of a type parameter that can be in scope in the member's body. -/
def Member.clauseOf? (m : Member) (k : TypeParamKey) : Option TypeParam :=
  (m.typeParamsOf k.owner).find? fun q => decide (q.name = k.name)

/-- The first member of a name on the types that a clause names as bounds. -/
def Program.memberByBounds? (p : Program) (q : TypeParam) (name : String) : Option Member :=
  q.bounds.findSome? fun bound => match bound with
    | .named _ _ => p.member? ⟨bound, name⟩
    | _ => none

theorem Surroundings.boundMember?_eq (env : Surroundings) (param name : String) :
    env.boundMember? param name =
      (env.clause? param).bind fun q => env.program.memberByBounds? q name := rfl

/-- A clause that names a type with the member has the member. -/
theorem Program.isSome_memberByBounds? {p : Program} {q : TypeParam} {bound : TypeRef}
    (hbound : bound ∈ q.bounds) {name : String} (h : (p.member? ⟨bound, name⟩).isSome) :
    (p.memberByBounds? q name).isSome := by
  rw [memberByBounds?, List.findSome?_isSome_iff]
  refine ⟨bound, hbound, ?_⟩
  cases bound with
  | named => exact h
  | _ => exact absurd h (by simp [member?, TypeRef.declName])

namespace GenericScope

variable {g : GenericScope}

/-- A name means a type parameter of the innermost declaration, if that has one of the name. -/
theorem resolve_push (g : GenericScope) (owner : String) (params : List TypeParam) (name : String) :
    (g.push owner params).resolve name =
      if (params.map TypeParam.name).contains name then some ⟨owner, name⟩ else g.resolve name := by
  unfold resolve push
  rw [List.find?_cons]
  cases (params.map TypeParam.name).contains name <;> rfl

/-- A name means a type parameter of that name. -/
theorem name_of_resolve {name : String} {k : TypeParamKey} (h : g.resolve name = some k) :
    k.name = name := by
  obtain ⟨frame, _, rfl⟩ := Option.map_eq_some_iff.1 h
  rfl

end GenericScope

/-- Among some type parameters, one of a name is found if there is one. -/
theorem TypeParam.isSome_find? (params : List TypeParam) (name : String) :
    (params.find? fun q => decide (q.name = name)).isSome =
      (params.map TypeParam.name).contains name := by
  rw [Bool.eq_iff_iff, List.find?_isSome]
  simp

/-! ## The clause that is searched -/

namespace Member

variable {m : Member}

/-- In the member's scope without its local functions, a name means a type parameter of the member, or
else one of its type. -/
theorem resolve_innerScope (m : Member) (name : String) :
    m.innerScope.resolve name =
      if (m.decl.typeParams.map TypeParam.name).contains name then some ⟨m.key, name⟩
      else if (m.owner.typeParams.map TypeParam.name).contains name then some ⟨m.owner.name, name⟩
      else none := by
  rw [innerScope, outerScope, GenericScope.resolve_push, GenericScope.resolve_push]
  rfl

theorem typeParamsOf_key (m : Member) : m.typeParamsOf m.key = m.decl.typeParams := if_pos rfl

theorem typeParamsOf_typeName (h : m.owner.name ≠ m.key) :
    m.typeParamsOf m.owner.name = m.owner.typeParams := by
  rw [typeParamsOf, if_neg h, if_pos rfl]

/-- The type parameters of a local function are known by its key. -/
theorem typeParamsOf_localKey {p : Program} (hk : p.DistinctKeys) (hm : m ∈ p.members) {d : FnDecl}
    (hd : d ∈ m.localFunctions) : m.typeParamsOf (m.localKey d) = d.typeParams := by
  have hlocal : m.localKey d ∈ p.localKeys := Program.DistinctKeys.localKey_mem hm hd
  have hmember : m.localKey d ≠ m.key := fun h =>
    hk.localKey_not_mem_memberKeys hlocal (h ▸ List.mem_map_of_mem hm)
  have htype : m.localKey d ≠ m.owner.name := fun h =>
    hk.localKey_not_mem_typeNames hlocal (h ▸ Surroundings.typeName_mem hm)
  rw [typeParamsOf, if_neg hmember, if_neg htype]
  obtain ⟨d', hd'⟩ := Option.isSome_iff_exists.1
    (List.find?_isSome.2 ⟨d, hd, decide_eq_true (rfl : m.localKey d = m.localKey d)⟩ :
      (m.localFunctions.find? fun x => decide (m.localKey x = m.localKey d)).isSome)
  have hkey : m.localKey d' = m.localKey d := by simpa using List.find?_some hd'
  rw [hd', (hk.localFunction_eq hm hm (List.mem_of_find?_eq_some hd') hd hkey).2]
  rfl

end Member

/-- No member has the key of its type. -/
theorem Program.DistinctKeys.typeName_ne_key {p : Program} (hk : p.DistinctKeys) {m : Member}
    (hm : m ∈ p.members) : m.owner.name ≠ m.key := fun h =>
  (List.nodup_append.1 hk).2.2 _ (List.mem_dedup.2 (Surroundings.typeName_mem hm)) _
    (List.mem_append_left _ (List.mem_map_of_mem hm)) h

namespace Surroundings

variable {p : Program} {m : Member} {runtime : Bool} {g : GenericScope} {name : String}
  {k : TypeParamKey}

/-- The clause that is searched is that of the type parameter which the name would mean outside of all
local functions. -/
theorem clause?_eq (hne : m.owner.name ≠ m.key) (name : String) :
    clause? ⟨p, m, runtime⟩ name = (m.innerScope.resolve name).bind m.clauseOf? := by
  have hown := TypeParam.isSome_find? m.decl.typeParams name
  have hnone {params : List TypeParam} (h : ¬ (params.map TypeParam.name).contains name = true) :
      (params.find? fun q => decide (q.name = name)) = none := by
    rwa [← TypeParam.isSome_find?, Option.not_isSome_iff_eq_none] at h
  rw [clause?, List.find?_append, m.resolve_innerScope]
  split_ifs with h h'
  · rw [Option.or_of_isSome (hown.trans h), Option.bind_some, Member.clauseOf?, m.typeParamsOf_key]
  · rw [hnone h, Option.none_or,
      Option.bind_some, Member.clauseOf?, Member.typeParamsOf_typeName hne]
  · rw [hnone h,
      hnone h']
    rfl

/-- A type parameter in scope that is of no local function is what its name means outside of these. -/
theorem Inside.resolve_innerScope (hg : Inside ⟨p, m, runtime⟩ g) (h : g.resolve name = some k)
    (hk : k.owner ∉ m.localKeys) : m.innerScope.resolve name = some k := by
  induction hg with
  | member => exact h
  | localFunction _ hd ih =>
    rw [GenericScope.resolve_push] at h
    split at h
    · obtain rfl := Option.some.inj h
      exact absurd (localKey_mem hd) hk
    · exact ih h

/-- Every type parameter in scope has a clause. -/
theorem Inside.exists_clauseOf? (hkeys : p.DistinctKeys) (hm : m ∈ p.members)
    (hg : Inside ⟨p, m, runtime⟩ g) (h : g.resolve name = some k) :
    ∃ q, m.clauseOf? k = some q ∧ q.name = name := by
  have main {params : List TypeParam} (hparams : m.typeParamsOf k.owner = params)
      (hname : (params.map TypeParam.name).contains name = true) :
      ∃ q, m.clauseOf? k = some q ∧ q.name = name := by
    rw [← TypeParam.isSome_find?, ← GenericScope.name_of_resolve h] at hname
    obtain ⟨q, hq⟩ := Option.isSome_iff_exists.1 hname
    refine ⟨q, by rw [Member.clauseOf?, hparams, hq], ?_⟩
    rw [← GenericScope.name_of_resolve h]
    simpa using List.find?_some hq
  induction hg with
  | member =>
    have hresolve := h
    rw [m.resolve_innerScope] at h
    split_ifs at h with hown houter
    · obtain rfl := Option.some.inj h
      exact main m.typeParamsOf_key hown
    · obtain rfl := Option.some.inj h
      exact main (Member.typeParamsOf_typeName (hkeys.typeName_ne_key hm)) houter
  | @localFunction g d _ hd ih =>
    rw [GenericScope.resolve_push] at h
    split at h
    · next hown =>
      obtain rfl := Option.some.inj h
      exact main (Member.typeParamsOf_localKey hkeys hm hd) hown
    · exact ih h

end Surroundings

/-! ## What references resolve to -/

namespace WalkState

/-- The reference resolves to the member that is given, without an error; if none is, that is
reported. -/
def ResolvesTo (env : Surroundings) (s : WalkState) (r : MemberRef) (span : Span) :
    Option Member → Prop
  | some n => (∃ callee, (Walk.resolve env r span).answer s = some callee ∧ callee.decl = n.decl ∧
      callee.key = n.key) ∧ ((Walk.resolve env r span).after s).errors = s.errors
  | none => (Walk.resolve env r span).answer s = none ∧
      ((Walk.resolve env r span).after s).errors =
        s.errors ++ [⟨.unresolvedMember r.display, span⟩]

/-- Members of type parameters are searched by a clause. -/
theorem resolvesTo_boundMember? (env : Surroundings) (s : WalkState) (param name : String)
    (span : Span) : s.ResolvesTo env ⟨.param param, name⟩ span (env.boundMember? param name) := by
  have htarget : s.target? env ⟨.param param, name⟩ =
      (env.boundMember? param name).map .member := rfl
  cases hfound : env.boundMember? param name with
  | none =>
    rw [hfound] at htarget
    refine ⟨?_, by rw [Walk.after_resolve_of_none htarget]; rfl⟩
    rw [Walk.resolve, Walk.answer_bind, Walk.answer_get, Walk.after_get, htarget]
    rfl
  | some n =>
    rw [hfound] at htarget
    refine ⟨?_, by rw [Walk.after_resolve_of_target htarget]⟩
    rw [Walk.resolve, Walk.answer_bind, Walk.answer_get, Walk.after_get, htarget]
    exact ⟨_, rfl, rfl, rfl⟩

/-- **Members of type parameters.** Wherever the walk over a body has come to, a type parameter in scope
has a clause, that of the innermost declaration with a type parameter of the name. If that declaration
is no local function, a reference to a member of the type parameter resolves to the first member of the
name on a bound in that clause. If it is a local function, the clause is passed over: the reference
resolves by the clause of the type parameter that the name means outside of all local functions, which
is another one, or to nothing if there is none.

**Proof sketch.** The scope at any point is that of the member with some local functions pushed onto it,
so a name that means none of their type parameters means what it does in the member's scope. The search
looks through the type parameters of the member and then of its type, which is what the member's scope
does. -/
theorem resolves_by_clause {p : Program} (hkeys : p.DistinctKeys) {m : Member} (hm : m ∈ p.members)
    {runtime : Bool} {s : WalkState} (hs : s.Placed ⟨p, m, runtime⟩) {param : String}
    {k : TypeParamKey} (hk : s.generics.resolve param = some k) (name : String) (span : Span) :
    let env : Surroundings := ⟨p, m, runtime⟩
    let r : MemberRef := ⟨.param param, name⟩
    (∃ q, m.clauseOf? k = some q ∧ q.name = param ∧
      (k.owner ∉ m.localKeys → s.ResolvesTo env r span (p.memberByBounds? q name))) ∧
    (k.owner ∈ m.localKeys →
      (∀ k' q', m.innerScope.resolve param = some k' → m.clauseOf? k' = some q' →
        k' ≠ k ∧ s.ResolvesTo env r span (p.memberByBounds? q' name)) ∧
      (m.innerScope.resolve param = none → s.ResolvesTo env r span none)) := by
  intro env r
  have hclause : env.clause? param = (m.innerScope.resolve param).bind m.clauseOf? :=
    Surroundings.clause?_eq (hkeys.typeName_ne_key hm) param
  have hresolves := s.resolvesTo_boundMember? env param name span
  rw [env.boundMember?_eq, hclause] at hresolves
  obtain ⟨q, hq, hname⟩ := hs.generics.exists_clauseOf? hkeys hm hk
  refine ⟨⟨q, hq, hname, fun howner => ?_⟩, fun howner => ⟨fun k' q' hk' hq' => ⟨?_, ?_⟩, ?_⟩⟩
  · rw [hs.generics.resolve_innerScope hk howner, Option.bind_some, hq, Option.bind_some]
      at hresolves
    exact hresolves
  · rintro rfl
    rw [m.resolve_innerScope] at hk'
    -- The keys of the member and of its type are no keys of local functions.
    split_ifs at hk' <;> obtain rfl := Option.some.inj hk'
    · exact hkeys.localKey_not_mem_memberKeys (List.mem_flatMap.2 ⟨m, hm, howner⟩)
        (List.mem_map_of_mem hm)
    · exact hkeys.localKey_not_mem_typeNames (List.mem_flatMap.2 ⟨m, hm, howner⟩)
        (Surroundings.typeName_mem hm)
  · rw [hk', Option.bind_some, hq', Option.bind_some] at hresolves
    exact hresolves
  · intro hnone
    rw [hnone] at hresolves
    exact hresolves

end WalkState

/-! ## Clauses that are passed over -/

namespace Hoppers

open Slots

/-- What hoppers have. -/
def count : FnDecl :=
  ⟨2, "Count", .method, default, [], [], .nothing, [], none, none, none, .zero⟩

/-- Hoppers can be counted. -/
def hopper : TypeDecl := ⟨1, "IHopper", .interface, false, false, [], [], [], [], [count], .zero⟩

/-- Bins cannot. -/
def bin : TypeDecl := ⟨3, "IBin", .interface, false, false, [], [], [], [], [], .zero⟩

/-- A type parameter that is bounded by an interface. -/
def bounded (name interface : String) : TypeParam :=
  ⟨name, [⟨.bound (.named interface []), .zero⟩], .zero⟩

/-- A function with a type parameter, which counts what it is given. -/
def counting (id : NodeId) (name : String) (q : TypeParam) : FnDecl :=
  let item : Expr := ⟨11, .var "t", .param q.name, .zero⟩
  { fn id name [⟨"t", .param q.name, .none, false, [], .zero⟩] .nothing
      [⟨9, .expr ⟨10, .call (some item) ⟨.param q.name, "Count"⟩ [] [], .void, .zero⟩, .zero⟩] with
    typeParams := [q] }

/-- A function with the local function. -/
def nesting (q : TypeParam) : FnDecl :=
  fn 6 "Run" [] .nothing [⟨7, .localFunction (counting 8 "Use" q), .zero⟩]

/-- A function in its class, with the type parameters of the class. -/
def member (params : List TypeParam) (decl : FnDecl) : Member :=
  ⟨⟨5, "Hoppers", .classType, false, false, params, [], [], [], [decl], .zero⟩, decl⟩

/-- A program with hoppers, bins and the class. -/
def program (params : List TypeParam) (decl : FnDecl) : Program :=
  ⟨[hopper, bin, (member params decl).owner]⟩

/-- A local function cannot count what is bounded by hoppers in its own clause. -/
def own : FnDecl := nesting (bounded "U" "IHopper")

/-- A local function can count what is bounded by bins in its own clause, if the clause of the class for
the same name is bounded by hoppers. -/
def other : FnDecl := nesting (bounded "T" "IBin")

@[inherit_doc other]
def outer : List TypeParam := [bounded "T" "IHopper"]

/-- In the first local function, the clause of the type parameter in scope has the member, and the
reference is not resolved. In the second one, the clause does not have it, and the reference is
resolved. -/
theorem clause_passed_over :
    let scope (m : Member) (q : TypeParam) : GenericScope :=
      m.innerScope.push (m.localKey (counting 8 "Use" q)) [q]
    ((scope (member [] own) (bounded "U" "IHopper")).resolve "U" = some ⟨"Hoppers.Run.Use", "U"⟩ ∧
      ((member [] own).clauseOf? ⟨"Hoppers.Run.Use", "U"⟩).bind
        ((program [] own).memberByBounds? · "Count") = some ⟨hopper, count⟩ ∧
      ((program [] own).analyze {}).escapeErrors = [⟨.unresolvedMember "U.Count", .zero⟩]) ∧
    ((scope (member outer other) (bounded "T" "IBin")).resolve "T" =
        some ⟨"Hoppers.Run.Use", "T"⟩ ∧
      ((member outer other).clauseOf? ⟨"Hoppers.Run.Use", "T"⟩).bind
        ((program outer other).memberByBounds? · "Count") = none ∧
      ((program outer other).analyze {}).escapeErrors = []) := by
  refine ⟨⟨?_, ?_, ?_⟩, ?_, ?_, ?_⟩ <;> cbv

/-- A member that counts what is bounded by hoppers in its own clause. -/
def plain : FnDecl := counting 6 "Run" (bounded "T" "IHopper")

/-- The state in which its body is entered. -/
def start : WalkState :=
  (program [] plain).bodyEntry true {} (member [] plain) (plain.body.getD [])

/-- The member can count it. -/
theorem resolves_by_clause_plain :
    let p := program [] plain
    let m := member [] plain
    let env : Surroundings := ⟨p, m, true⟩
    p.DistinctKeys ∧ m ∈ p.members ∧ start.Placed env ∧
      start.generics.resolve "T" = some ⟨"Hoppers.Run", "T"⟩ ∧
      start.ResolvesTo env ⟨.param "T", "Count"⟩ .zero (some ⟨hopper, count⟩) := by
  intro p m env
  have hkeys : p.DistinctKeys := by decide +kernel
  have hm : m ∈ p.members := List.mem_cons_of_mem _ (List.mem_cons_self ..)
  have hs : start.Placed env := Program.placed_bodyEntry p true _ rfl
  have hk : start.generics.resolve "T" = some ⟨"Hoppers.Run", "T"⟩ := by decide +kernel
  obtain ⟨⟨q, hq, _, hresolves⟩, _⟩ := WalkState.resolves_by_clause hkeys hm hs hk "Count" .zero
  have hclause : m.clauseOf? ⟨"Hoppers.Run", "T"⟩ = some (bounded "T" "IHopper") := by
    rw [Member.clauseOf?, show "Hoppers.Run" = m.key from rfl, m.typeParamsOf_key]
    rfl
  obtain rfl : q = bounded "T" "IHopper" := Option.some.inj (hq.symm.trans hclause)
  have hfound : p.memberByBounds? (bounded "T" "IHopper") "Count" = some ⟨hopper, count⟩ := by cbv
  exact ⟨hkeys, hm, hs, hk, hfound ▸ hresolves (by decide +kernel)⟩

end Hoppers

end StackEscape
