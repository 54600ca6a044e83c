import StackEscape.Proofs.OutVars
import StackEscape.Proofs.OwnContract

/-!
# Members that are called on receivers

A reference names a member by the type that declares it, and a call on a receiver is meant for that
member. Still a local function of the same name is preferred if it is visible and the type is the
one whose body is walked, and then the receiver counts for nothing.

## Main definitions

* `StackEscape.Surroundings.member?` — the declared member that a reference names.
* `StackEscape.WalkState.shadowing?` — the local function that is preferred.
* `StackEscape.Tables.Declared` — what is filed in a run, whatever was walked before.
* `StackEscape.ScopePair.StaysWithin` — a pair that was given up, or reaches no farther than a
  level.

## Main results

* `StackEscape.Tables.Declared.steps`, `StackEscape.Program.declared_checkMembers` — walks keep what
  is filed.
* `StackEscape.Contract.outcome_staysWithin` — a call of an instance member stays within the value
  of its receiver.
* `StackEscape.Walk.declared_called_iff` — when a reference is called with the contract of the
  declared member.
* `StackEscape.Reels.escapes_through_local_function` — a value that leaves its method since a local
  function is called in place of a member.
-/

set_option autoImplicit false

namespace StackEscape

/-! ## What references name -/

/-- The declared member that a reference names: a member of a type, or of the bounds of a type
parameter. -/
def Surroundings.member? (env : Surroundings) (r : MemberRef) : Option Member :=
  match r.owner with
  | .param param => env.boundMember? param r.name
  | _ => env.program.member? r

namespace WalkState

/-- The local function that is preferred to the declared member. -/
def shadowing? (s : WalkState) (env : Surroundings) (r : MemberRef) : Option FnDecl :=
  if r.owner.declName = some env.member.owner.name then s.ctx.localFunction r.name else none

variable {s : WalkState} {env : Surroundings} {r : MemberRef}

/-- A reference means the local function that is preferred, if there is one. -/
theorem target?_of_shadowing {d : FnDecl} (h : s.shadowing? env r = some d) :
    s.target? env r = some (.localFunction d) := by
  unfold shadowing? at h
  unfold target?
  rw [h]

/-- If there is none, it means the declared member. -/
theorem target?_of_not_shadowing (h : s.shadowing? env r = none) :
    s.target? env r = (env.member? r).map .member := by
  unfold shadowing? at h
  unfold target? Surroundings.member?
  rw [h]
  obtain ⟨owner, name⟩ := r
  cases owner <;> rfl

/-- Declared members are members of the program. -/
theorem mem_members_of_member? {m : Member} (h : env.member? r = some m) :
    m ∈ env.program.members := by
  -- In a state without any scope no local function is preferred.
  let bare : WalkState := { ctx := ⟨[], []⟩, generics := [], tables := {} }
  have hnone : bare.shadowing? env r = none := by
    simp [shadowing?, bare, Context.localFunction]
  refine Covers.mem_members_of_target? (s := bare) (r := r) ?_
  rw [target?_of_not_shadowing hnone, h, Option.map_some]

end WalkState

/-- Variables hide no local functions. -/
theorem WalkState.Progress.shadowing?_eq {env : Surroundings} {s t : WalkState} {r : MemberRef}
    (h : s.Progress env t) : t.shadowing? env r = s.shadowing? env r := by
  obtain ⟨infos, hctx⟩ := h.context
  simp only [WalkState.shadowing?, hctx, Context.localFunction_declareAll]

/-! ## What is filed -/

/-- The contract is one of a local function with the key, which has no receiver to derive anything
from. -/
structure Contract.IsLocal (c : Contract) (key : String) : Prop where
  /-- It is about the local function. -/
  member : c.member = key
  /-- Nothing is derived from a receiver. -/
  sources : ∀ source ∈ c.returnSources, source.input ≠ .receiver

/-- What is built for a local function is a contract of it. -/
theorem Contract.isLocal_build (caps : Capabilities) (p : Program) (owner : TypeDecl)
    (decl : FnDecl) (key : String) (scope : GenericScope) :
    (build caps p owner decl key scope true).IsLocal key := by
  refine ⟨rfl, fun source hsource => ?_⟩
  simp only [build, Bool.not_true, Bool.and_false, Bool.false_eq_true, if_false, List.nil_append,
    paramSources, List.mem_flatMap, List.mem_map] at hsource
  obtain ⟨_, _, _, _, rfl⟩ := hsource
  exact Input.noConfusion

/-- What is filed in a run: capabilities that differ from the declared ones for local functions
only, contracts of members by their declarations, and contracts of local functions. -/
structure Tables.Declared (p : Program) (caps : Capabilities) (T : Tables) : Prop where
  /-- What the declarations say of type parameters is still there. -/
  caps : T.caps.Agree (fun k => k ∉ p.localKeys) caps
  /-- Contracts of members are theirs. -/
  members : T.MembersPure p
  /-- Contracts of local functions are those of local functions. -/
  locals : ∀ k ∈ p.localKeys, ∀ c, T.contracts.get? k = some c → c.IsLocal k

namespace Tables.Declared

variable {p : Program} {caps : Capabilities} {T U : Tables}

/-- After the check of declarations only capabilities are filed. -/
theorem empty (p : Program) (caps : Capabilities) : Tables.Declared p caps ⟨caps, .empty⟩ :=
  ⟨.refl _ _, fun _ _ c hc => by simp at hc, fun _ _ c hc => by simp at hc⟩

/-- The contract of a member is the one its declaration says. -/
theorem ofMember_eq (h : T.Declared p caps) (hk : p.DistinctKeys) {m : Member}
    (hm : m ∈ p.members) : Contract.ofMember T.caps p m = Contract.ofMember caps p m :=
  h.caps.ofMember_eq
    (fun hmem => hk.localKey_not_mem_memberKeys hmem (List.mem_map_of_mem hm))
    (fun hmem => hk.localKey_not_mem_typeNames hmem (Surroundings.typeName_mem hm))

/-- What is obtained for a local function is a contract of it. -/
theorem isLocal_obtain (h : T.Declared p caps) {key : String} (hk : key ∈ p.localKeys)
    {c : Contract} (hc : c.IsLocal key) : (T.contracts.obtain key c).1.IsLocal key := by
  rw [Contracts.obtain_fst]
  cases hfound : T.contracts.get? key with
  | none => exact hc
  | some found => exact h.locals key hk found hfound

/-- What one step of a walk files. -/
theorem step {env : Surroundings} (hk : env.program.DistinctKeys)
    (hm : env.member ∈ env.program.members) (h : T.Declared env.program caps)
    (hstep : env.TableStep T U) : U.Declared env.program caps := by
  have hinj : ∀ m₁ ∈ env.program.members, ∀ m₂ ∈ env.program.members,
      m₁.key = m₂.key → m₁ = m₂ := fun _ h₁ _ h₂ => hk.member_eq h₁ h₂
  have hlocal {d : FnDecl} (hd : d ∈ env.member.localFunctions) :
      env.localKey d ∈ env.program.localKeys := Program.DistinctKeys.localKey_mem hm hd
  cases hstep with
  | @member m₁ hm₁ =>
    refine ⟨h.caps, h.members.obtainMember hinj hm₁, fun k hmem c hc => ?_⟩
    have hne : k ≠ m₁.key := fun e =>
      hk.localKey_not_mem_memberKeys hmem (e ▸ List.mem_map_of_mem hm₁)
    rw [Contracts.get?_obtain, if_neg hne] at hc
    exact h.locals k hmem c hc
  | localFunction _ hd =>
    refine ⟨h.caps, h.members.obtainOther (hk.localKey_not_mem_memberKeys (hlocal hd)) _,
      fun k hmem c hc => ?_⟩
    rw [Contracts.get?_obtain] at hc
    split at hc
    next hsame =>
      rw [← Contracts.obtain_fst] at hc
      obtain rfl := Option.some.inj hc
      exact hsame ▸ h.isLocal_obtain (hlocal hd) (Contract.isLocal_build ..)
    next => exact h.locals k hmem c hc
  | typeParams _ hd =>
    refine ⟨fun k hnot => ?_, h.members.fillOther (hk.localKey_not_mem_memberKeys (hlocal hd))
      (hk.localKey_not_mem_typeNames (hlocal hd)) _ _, h.locals⟩
    have hne : k.owner ≠ env.localKey _ := fun e => hnot (e ▸ hlocal hd)
    rw [Capabilities.get?_fillOwn_of_ne hne]
    exact h.caps k hnot

/-- What a walk over a body files. -/
theorem steps (env : Surroundings) (hk : env.program.DistinctKeys)
    (hm : env.member ∈ env.program.members) (h : T.Declared env.program caps)
    (hsteps : Relation.ReflTransGen env.TableStep T U) : U.Declared env.program caps := by
  induction hsteps with
  | refl => exact h
  | tail _ hstep ih => exact ih.step hk hm hstep

end Tables.Declared

/-- What the walks over some members file. -/
theorem Program.declared_checkMembers {p : Program} (hk : p.DistinctKeys) (runtime : Bool)
    {ms : List Member} (hms : ms ⊆ p.members) :
    (p.checkMembers runtime (p.declaredTables runtime) ms).2.Declared p
      (p.declaredTables runtime).caps :=
  checkMembers_keeps (P := fun T => T.Declared p _)
    (fun m hm _ _ hsteps h => h.steps ⟨p, m, runtime⟩ hk hm hsteps) (.empty p _) hms

/-! ## Receivers -/

/-- The pair was given up, or its value escapes no farther than the level. -/
def ScopePair.StaysWithin (pair : ScopePair) (level : Level) : Prop :=
  pair.isInvalid = true ∨ pair.value ≤ level

/-- An instance member may return what its receiver holds. -/
theorem Contract.receiver_mem_returnSources (caps : Capabilities) (p : Program) {m : Member}
    (h : m.decl.modifiers.isStatic = false) :
    (⟨.receiver, .value⟩ : ReturnSource) ∈ (Contract.ofMember caps p m).returnSources := by
  simp [ofMember, build, receiverSources, h]

/-- A stack-only result stays within the value of its receiver. -/
theorem Contract.outcome_staysWithin {c : Contract} {op : Operand}
    (hc : (⟨.receiver, .value⟩ : ReturnSource) ∈ c.returnSources) (hfresh : op.fresh = false)
    (hstack : op.stackOnly = true) (args : List Operand) :
    (c.outcome (some op) args true).result.StaysWithin op.pair.value := by
  unfold outcome
  split
  · right
    change (c.resultPair true (c.derivedLevel (some op) args)).value ≤ op.pair.value
    rw [value_resultPair]
    exact derivedLevel_le hc (by simp [sourceLevel, operand?, hfresh, hstack])
  · exact Or.inl rfl

/-- A local function derives nothing from the receiver it is called on. -/
theorem Contract.IsLocal.outcome_eq {c : Contract} {key : String} (hc : c.IsLocal key)
    {op op' : Operand} (hvalid : op.pair.isInvalid = op'.pair.isInvalid) (args : List Operand)
    (stackOnly : Bool) :
    c.outcome (some op) args stackOnly = c.outcome (some op') args stackOnly := by
  have hderived : c.derivedLevel (some op) args = c.derivedLevel (some op') args := by
    unfold derivedLevel
    refine congrArg (List.foldl Level.narrower .unlimited)
      (List.filterMap_congr fun source hsource => ?_)
    have hinput := hc.sources source hsource
    obtain ⟨_ | i, via⟩ := source
    · exact absurd rfl hinput
    · rfl
  simp [outcome, hderived, hvalid]

namespace WalkState

variable {s : WalkState} {env : Surroundings} {caps : Capabilities} {r : MemberRef}

/-- Where no local function is preferred, a reference has the contract of the declared member. -/
theorem contract?_of_not_shadowing (hk : env.program.DistinctKeys)
    (htables : s.tables.Declared env.program caps) (h : s.shadowing? env r = none) :
    s.contract? env r = (env.member? r).map (Contract.ofMember caps env.program) := by
  unfold contract?
  rw [target?_of_not_shadowing h]
  cases hm : env.member? r with
  | none => rfl
  | some m =>
    have hmem := mem_members_of_member? hm
    change some (s.tables.contracts.obtain m.key (Contract.ofMember s.tables.caps _ m)).1 = _
    rw [htables.members.obtain_eq hmem, htables.ofMember_eq hk hmem]
    rfl

/-- Where one is preferred, it has a contract of that. -/
theorem exists_contract?_of_shadowing (hm : env.member ∈ env.program.members) (hs : s.Placed env)
    (htables : s.tables.Declared env.program caps) {d : FnDecl}
    (h : s.shadowing? env r = some d) :
    d ∈ env.member.localFunctions ∧
      ∃ c, s.contract? env r = some c ∧ c.IsLocal (env.localKey d) := by
  have htarget := target?_of_shadowing h
  have hd : d ∈ env.member.localFunctions := Covers.mem_localFunctions_of_target? hs htarget
  refine ⟨hd, (s.tables.contracts.obtain (env.localKey d) (s.localContract env d)).1, ?_,
    htables.isLocal_obtain (Program.DistinctKeys.localKey_mem hm hd) (Contract.isLocal_build ..)⟩
  unfold contract?
  rw [htarget]
  rfl

end WalkState

/-- The member that a written call names. -/
def ExprKind.callee? : ExprKind → Option MemberRef
  | .property _ r _ | .call _ r _ _ => some r
  | _ => none

namespace Walk

variable {env : Surroundings} {s : WalkState} {r : MemberRef} {c : Contract} {op : Operand}

/-- A copy only narrows the value. -/
theorem copied_staysWithin {pair : ScopePair} {level : Level} (h : pair.StaysWithin level)
    (c : Contract) (receiver : Option Operand) (ty : TypeRef) (span : Span) (s : WalkState) :
    ((copied env c receiver ty span pair).answer s).StaysWithin level := by
  rw [answer_copied]
  split
  · exact Or.inr (Nat.zero_le _)
  · exact h

/-- Read through a getter, a stack-only result stays within the value of the receiver, copied or
not. -/
theorem readProperty_staysWithin (hcontract : s.contract? env r = some c)
    (hc : (⟨.receiver, .value⟩ : ReturnSource) ∈ c.returnSources) (hfresh : op.fresh = false)
    (hstack : op.stackOnly = true) (args : List Operand) {ty : TypeRef}
    (hty : (s.types env).stackOnly ty = true) (span : Span) :
    ((readProperty env r (some op) args ty span).answer s).StaysWithin op.pair.value := by
  have hresolve := answer_resolve env r span s
  rw [hcontract] at hresolve
  obtain ⟨callee, hcallee, rfl⟩ := Option.map_eq_some_iff.1 hresolve
  have htypes := (resolve_keeps env r span s).1
  have hresult : ((invoke env callee.contract (some op) args ty span).answer
      ((resolve env r span).after s)).result.StaysWithin op.pair.value := by
    rw [answer_invoke, htypes, hty]
    exact Contract.outcome_staysWithin hc hfresh hstack args
  unfold readProperty
  rw [answer_bind, hcallee]
  exact copied_staysWithin hresult ..

/-- Called otherwise, it does too. -/
theorem callPair_staysWithin (hcontract : s.contract? env r = some c)
    (hc : (⟨.receiver, .value⟩ : ReturnSource) ∈ c.returnSources) (hfresh : op.fresh = false)
    (hstack : op.stackOnly = true) (args : List Operand) {ty : TypeRef}
    (hty : (s.types env).stackOnly ty = true) :
    (callPair s env r (some op) args ty).StaysWithin op.pair.value := by
  unfold callPair
  rw [hcontract, hty]
  exact Contract.outcome_staysWithin hc hfresh hstack args

/-- The operands of a written call, and then the call itself. -/
theorem answer_checkForm_of_receiver {kind : ExprKind} {e : Expr} (hr : kind.callee? = some r)
    (he : kind.callReceiver = some e) (hout : e.isOutVar = false) (id : NodeId) (ty : TypeRef)
    (span : Span) (s : WalkState) :
    let v := (checkExpr env e).after s
    let u := (checkArgs env kind.callArgs).after v
    let pair := (checkExpr env e).answer s
    let op := Operand.ofExpr e pair ((v.types env).stackOnly e.ty) .none false
    let args := (checkArgs env kind.callArgs).answer v
    (checkForm env id ty span kind).answer s =
        (readProperty env r (some op) args ty span).answer u ∨
      (checkForm env id ty span kind).answer s = callPair u env r (some op) args ty := by
  have hoperand : (checkReceiver env (some e)).run s =
      (some (.ofExpr e ((checkExpr env e).answer s)
        ((((checkExpr env e).after s).types env).stackOnly e.ty) .none false),
        (checkExpr env e).after s) := by
    obtain ⟨eid, ekind, ety, espan⟩ := e
    cases ekind with
    | outVar name => cases hout
    | _ => rw [checkReceiver]; rfl
  have hanswer : (checkReceiver env (some e)).answer s = _ := congrArg Prod.fst hoperand
  have hafter : (checkReceiver env (some e)).after s = _ := congrArg Prod.snd hoperand
  cases kind with
  | property receiver getter args =>
    obtain rfl : receiver = some e := he
    obtain rfl : getter = r := Option.some.inj hr
    left
    rw [checkForm, answer_bind, hanswer, hafter]
    rfl
  | call receiver method typeArgs args =>
    obtain rfl : receiver = some e := he
    obtain rfl : method = r := Option.some.inj hr
    right
    rw [checkForm, answer_bind, hanswer, hafter, ← answer_callOver env method typeArgs _ _ ty span]
    rfl
  | _ => cases hr

/-- The sites of a written call are its own, those of its receiver and those of its arguments. -/
theorem sites_of_receiver {a : Point} {kind : ExprKind} {e : Expr} (hr : kind.callee? = some r)
    (he : kind.callReceiver = some e) :
    Site.ofKind a kind = Site.ofExpr a e ++ Site.ofArgs a kind.callArgs := by
  cases kind with
  | property receiver getter args =>
    obtain rfl : receiver = some e := he
    rw [Site.ofKind, Site.ofOptional]
    rfl
  | call receiver method typeArgs args =>
    obtain rfl : receiver = some e := he
    rw [Site.ofKind, Site.ofOptional]
    rfl
  | _ => cases hr

/-- As an expression, a call stays within the value that is found for its receiver. -/
theorem checkExpr_staysWithin {a : Point} {e receiver : Expr}
    (hsub : Site.ofExpr a e ⊆ env.member.sites) (hs : s.Placed env)
    (hr : e.kind.callee? = some r) (he : e.kind.callReceiver = some receiver)
    (hout : receiver.isOutVar = false)
    (hcontract : ∀ t : WalkState, s.Progress env t → t.contract? env r = some c)
    (hc : (⟨.receiver, .value⟩ : ReturnSource) ∈ c.returnSources) :
    let v := (checkExpr env receiver).after s
    (v.types env).stackOnly receiver.ty = true →
    (((checkArgs env e.kind.callArgs).after v).types env).stackOnly e.ty = true →
    ((checkExpr env e).answer s).StaysWithin ((checkExpr env receiver).answer s).value := by
  intro v hstack hty
  let I : Inspection := ⟨env, .empty, .empty, False⟩
  obtain ⟨id, kind, ty, span⟩ := e
  have hparts : Site.ofExpr a receiver ++ Site.ofArgs a kind.callArgs ⊆ env.member.sites := by
    rw [← sites_of_receiver hr he]
    rw [Site.ofExpr] at hsub
    exact (List.cons_subset.1 hsub).2
  obtain ⟨hreceiver, hargs⟩ := List.append_subset.1 hparts
  have hcovers : Covers I a True _ _ (checkExpr env receiver) := Covers.checkExpr receiver
  have hcovers' : Covers I a True _ _ (checkArgs env kind.callArgs) := Covers.checkArgs _
  have hv : s.Progress env v := (hcovers.proper hreceiver).progress s hs
  have hu : s.Progress env ((checkArgs env kind.callArgs).after v) :=
    hv.trans ((hcovers'.proper hargs).progress v (hv.placed hs))
  have hform : ((checkForm env id ty span kind).answer s).StaysWithin
      ((checkExpr env receiver).answer s).value := by
    rcases answer_checkForm_of_receiver hr he hout id ty span s with h | h
    · rw [h]
      exact readProperty_staysWithin (hcontract _ hu) hc rfl hstack _ hty span
    · rw [h]
      exact callPair_staysWithin (hcontract _ hu) hc rfl hstack _ hty
  rw [checkExpr, answer_bind, answer_get, after_get]
  split
  · exact Or.inl rfl
  · exact hform

/-- **Calls on receivers.** Wherever the walk over a body has come to, a reference is called with
the contract of the declared member exactly if no local function is preferred. Then a stack-only
result of an instance member stays within the value of its receiver, whichever way the member is
called; and if a local function is preferred, the receiver makes no difference.

**Proof sketch.** Walks file contracts of members under the keys of these, and contracts of local
functions under other keys. The former list the receiver's value among the sources of the result,
the latter nothing of a receiver. -/
theorem declared_called_iff {p : Program} (hk : p.DistinctKeys) (runtime : Bool)
    {before : List Member} (hbefore : before ⊆ p.members) {m : Member} (hm : m ∈ p.members)
    {s : WalkState} (hs : s.Placed ⟨p, m, runtime⟩)
    (hsteps : Relation.ReflTransGen (Surroundings.TableStep ⟨p, m, runtime⟩)
      (p.checkMembers runtime (p.declaredTables runtime) before).2 s.tables)
    (r : MemberRef) (span : Span) :
    let env : Surroundings := ⟨p, m, runtime⟩
    let declared := (env.member? r).map (Contract.ofMember (p.declaredTables runtime).caps p)
    (((resolve env r span).answer s).map Callee.contract = declared ↔
      s.shadowing? env r = none) ∧
    (s.shadowing? env r = none →
      ∀ callee, env.member? r = some callee → callee.decl.modifiers.isStatic = false →
      ∀ op : Operand, op.fresh = false → op.stackOnly = true →
      ∀ args ty, (s.types env).stackOnly ty = true →
        ((invokeRef env r (some op) args ty span).answer s).StaysWithin op.pair.value ∧
        ((readProperty env r (some op) args ty span).answer s).StaysWithin op.pair.value ∧
        ∀ typeArgs, ((callOver env r typeArgs (some op) args ty span).answer s).StaysWithin
          op.pair.value) ∧
    (s.shadowing? env r = none →
      ∀ callee, env.member? r = some callee → callee.decl.modifiers.isStatic = false →
      ∀ a e receiver, Site.ofExpr a e ⊆ m.sites → e.kind.callee? = some r →
      e.kind.callReceiver = some receiver → receiver.isOutVar = false →
      let v := (checkExpr env receiver).after s
      (v.types env).stackOnly receiver.ty = true →
      (((checkArgs env e.kind.callArgs).after v).types env).stackOnly e.ty = true →
        ((checkExpr env e).answer s).StaysWithin ((checkExpr env receiver).answer s).value) ∧
    (s.shadowing? env r ≠ none →
      ∀ op op' : Operand, op.pair.isInvalid = op'.pair.isInvalid → ∀ args ty,
        (invokeRef env r (some op) args ty span).answer s =
          (invokeRef env r (some op') args ty span).answer s) := by
  intro env declared
  have htables : s.tables.Declared p (p.declaredTables runtime).caps :=
    (Program.declared_checkMembers hk runtime hbefore).steps env hk hm hsteps
  refine ⟨⟨fun h => ?_, fun h => ?_⟩, fun h callee hcallee hinstance => ?_,
    fun h callee hcallee hinstance a e receiver hsub hr he hout => ?_, fun h => ?_⟩
  · rw [answer_resolve] at h
    by_contra hne
    obtain ⟨d, hd⟩ := Option.ne_none_iff_exists'.1 hne
    obtain ⟨hmem, c, hc, hlocal⟩ := WalkState.exists_contract?_of_shadowing hm hs htables hd
    rw [hc] at h
    obtain ⟨callee, hcallee, rfl⟩ := Option.map_eq_some_iff.1 h.symm
    -- The contract would be filed under the keys of both.
    have hkey : callee.key = env.localKey d := hlocal.member
    exact hk.localKey_not_mem_memberKeys (Program.DistinctKeys.localKey_mem hm hmem)
      (List.mem_map.2 ⟨callee, WalkState.mem_members_of_member? hcallee, hkey⟩)
  · rw [answer_resolve]
    exact WalkState.contract?_of_not_shadowing hk htables h
  · have hcontract : s.contract? env r = _ := WalkState.contract?_of_not_shadowing hk htables h
    rw [hcallee] at hcontract
    have hc := Contract.receiver_mem_returnSources (p.declaredTables runtime).caps p hinstance
    intro op hfresh hstack args ty hty
    have hpair := callPair_staysWithin hcontract hc hfresh hstack args hty
    refine ⟨?_, readProperty_staysWithin hcontract hc hfresh hstack args hty span,
      fun typeArgs => ?_⟩
    · rw [answer_invokeRef]
      exact hpair
    · rw [answer_callOver]
      exact hpair
  · have hc := Contract.receiver_mem_returnSources (p.declaredTables runtime).caps p hinstance
    refine checkExpr_staysWithin hsub hs hr he hout (fun t ht => ?_) hc
    have hlater : t.contract? env r = _ := WalkState.contract?_of_not_shadowing hk
      (htables.steps env hk hm ht.tables) (ht.shadowing?_eq.trans h)
    rw [hlater, hcallee, Option.map_some]
  · obtain ⟨d, hd⟩ := Option.ne_none_iff_exists'.1 h
    obtain ⟨_, c, hc, hlocal⟩ := WalkState.exists_contract?_of_shadowing hm hs htables hd
    intro op op' hvalid args ty
    rw [answer_invokeRef, answer_invokeRef]
    unfold callPair
    rw [hc]
    exact congrArg Outcome.result (hlocal.outcome_eq hvalid args _)

end Walk

/-! ## Local functions in place of members -/

namespace Reels

open Slots

/-- The type of reels. -/
def reelTy : TypeRef := .named "Reel" []

/-- The rest of a reel. -/
def rest : FnDecl :=
  ⟨3, "Rest", .method, default, [], [], .byValue reelTy, [], none, none, none, .zero⟩

/-- A local function of the same name. -/
def other : FnDecl := fn 4 "Rest" [] (.byValue reelTy) []

/-- The rest of a reel that may not leave the method. -/
def call : Expr :=
  ⟨5, .call (some ⟨6, .var "reel", reelTy, .zero⟩) ⟨reelTy, "Rest"⟩ [] [], reelTy, .zero⟩

/-- A body that returns that, and may have a local function. -/
def body (functions : List Stmt) : List Stmt := functions ++ [⟨8, .ret (some call), .zero⟩]

/-- The function with the body. -/
def cut (functions : List Stmt) : FnDecl :=
  fn 7 "Cut" [⟨"reel", reelTy, .none, true, [], .zero⟩] (.byValue reelTy) (body functions)

/-- The declaration of the local function. -/
def declaration : Stmt := ⟨9, .localFunction other, .zero⟩

/-- Reels can be cut. -/
def reel (functions : List Stmt) : TypeDecl :=
  ⟨2, "Reel", .refStruct, false, false, [], [], [], [], [rest, cut functions], .zero⟩

/-- A program with reels. -/
def program (functions : List Stmt) : Program := ⟨[reel functions]⟩

/-- The surroundings of the body of `cut`. -/
def env (functions : List Stmt) : Surroundings :=
  ⟨program functions, ⟨reel functions, cut functions⟩, true⟩

/-- The state in which the body is entered. -/
def start (functions : List Stmt) : WalkState :=
  (program functions).bodyEntry true ((program functions).declaredTables true)
    (env functions).member (body functions)

theorem member?_rest (functions : List Stmt) :
    (program functions).member? ⟨reelTy, "Rest"⟩ = some ⟨reel functions, rest⟩ := by
  cbv

/-- The local function is called in place of the member, and the rest of a reel that may not leave
the method is returned from it. -/
theorem escapes_through_local_function :
    let run := (program [declaration]).analyze {}
    (env [declaration]).member? ⟨reelTy, "Rest"⟩ = some ⟨reel [declaration], rest⟩ ∧
      rest.modifiers.isStatic = false ∧ run.isOk = true ∧
      run.facts.pair? 6 = some .confined ∧
      run.facts.pair? 5 = some ⟨.unlimited, .currentMethod, false⟩ := by
  refine ⟨member?_rest _, rfl, ?_, ?_, ?_⟩ <;> decide +kernel

/-- Without the local function, the member is called, and the rest stays in the method. -/
theorem declared_called_iff_reel :
    let p := program []
    let s := start []
    let r : MemberRef := ⟨reelTy, "Rest"⟩
    p.DistinctKeys ∧ s.shadowing? (env []) r = none ∧
      ((Walk.resolve (env []) r .zero).answer s).map Callee.contract =
        some (Contract.ofMember (p.declaredTables true).caps p ⟨reel [], rest⟩) ∧
      ((Walk.checkExpr (env []) call).answer s).StaysWithin .currentMethod := by
  intro p s r
  let m : Member := ⟨reel [], cut []⟩
  let T := (p.checkMembers true (p.declaredTables true) []).2
  have hk : p.DistinctKeys := by decide +kernel
  have hm : m ∈ p.members := List.mem_cons_of_mem _ (List.mem_cons_self ..)
  have hs : s.Placed ⟨p, m, true⟩ := Program.placed_bodyEntry p true T rfl
  have hsteps : Relation.ReflTransGen (Surroundings.TableStep ⟨p, m, true⟩) T s.tables :=
    (Relation.ReflTransGen.single (.member hm T)).trans
      (Program.progress_bindMember p true T m).tables
  have hnone : s.shadowing? (env []) r = none := rfl
  obtain ⟨hiff, _, hexpr, _⟩ :=
    Walk.declared_called_iff hk true (List.nil_subset _) hm hs hsteps r .zero
  have hmember : Surroundings.member? ⟨p, m, true⟩ r = some ⟨reel [], rest⟩ := member?_rest []
  have hsub : Site.ofExpr (.ofMember m (body [])) call ⊆ m.sites := fun x hx =>
    List.mem_cons_of_mem _ (List.mem_append_left [] hx)
  refine ⟨hk, hnone, (hiff.2 hnone).trans (by rw [hmember]; rfl), ?_⟩
  exact hexpr hnone _ hmember rfl _ call _ hsub rfl rfl rfl (by decide +kernel) (by decide +kernel)

end Reels

end StackEscape
