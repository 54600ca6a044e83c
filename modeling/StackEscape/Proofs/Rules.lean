import StackEscape.Proofs.Coverage

/-!
# The rules of a walk

The parts of a walk that need no further walk over the tree: names, types, calls, bindings and
disposal. None of them covers a site, but the sites that surround them need to know what they
answer when there is no error at the end.

## Main results

* `StackEscape.Covers.resolving` — a reference means what it means at the point.
* `StackEscape.Covers.invoke`, `invokeRef`, `readProperty` — operands of a call are kept apart.
* `StackEscape.Covers.checkAssignment`, `checkReturned` — what flows out lives long enough.
* `StackEscape.Covers.readVariable`, `readThis`, `declareLocal`, `bindPattern` — no variable is
  given up.
-/

set_option autoImplicit false

namespace StackEscape

/-- The result of a call that is made is not given up. -/
theorem Contract.resultPair_isInvalid (c : Contract) (stackOnly : Bool) (derived : Level) :
    (c.resultPair stackOnly derived).isInvalid = false := by
  unfold Contract.resultPair
  split
  · rfl
  · split <;> rfl

namespace Covers

variable {I : Inspection} {α : Type} {a : Point} {pre : Prop} {xs : List Site}

/-- A walk that depends on a condition. -/
theorem ite {c : Prop} [Decidable c] {Q : α → Prop} {m n : Walk α}
    (hm : c → Covers I a pre xs Q m) (hn : ¬ c → Covers I a pre xs Q n) :
    Covers I a pre xs Q (if c then m else n) := by
  split
  · next h => exact hm h
  · next h => exact hn h

/-! ## Types -/

theorem stackOnly (ty : TypeRef) :
    Covers I a pre [] (fun b => I.strict → b = I.types.stackOnly ty) (Walk.stackOnly I.env ty) := by
  refine look (fun hk s t h => by rw [h.stackOnly_eq hk]) fun s _ => ?_
  exact .pure fun ⟨_, hI, hs, _⟩ hst => by rw [hs.stackOnly_eq hI hst]

/-- What passes had nothing wrong. -/
theorem passes (kind : Option EscapeErrorKind) (span : Span) :
    Covers I a pre [] (fun b => b = true ∧ kind = none) (Walk.passes kind span) := by
  cases kind with
  | none => exact .pure fun _ => ⟨rfl, rfl⟩
  | some kind => exact (report kind span).bind fun _ => .pure fun h => h.2.elim

theorem reportShapes (errors : List TypeError) :
    Covers I a pre [] (fun _ => errors = []) (Walk.reportShapes errors) :=
  (reportAll _).weaken fun _ _ h => List.map_eq_nil_iff.1 h

/-- The types in use are well formed. -/
theorem checkShape (ty : TypeRef) (span : Span) :
    Covers I a pre [] (fun b => b = true) (Walk.checkShape I.env ty span) := by
  refine look (fun hk s t h => by rw [h.typeErrors_eq hk]) fun s _ => ?_
  refine (reportShapes _).bind fun _ => .pure fun h => ?_
  rw [h.2]
  rfl

/-! ## Variables -/

/-- No stack-only variable stands in a function that may be suspended. -/
theorem rejectedInAsync (name : String) (ty : TypeRef) (span : Span) :
    Covers I a pre [] (fun b => b = false) (Walk.rejectedInAsync name ty span) := by
  refine look (fun _ s t h => by rw [h.forbidsLocals_eq]) fun s _ => ite (fun _ => ?_) fun hb => ?_
  · exact (report _ _).bind fun _ => .pure fun h => h.2.elim
  · exact .pure fun _ => by simpa using hb

/-- The variable of a binding is given up only with its value. -/
theorem declareBinding (name : String) (ty : TypeRef) {pair : ScopePair} (isRef : Bool)
    (span : Span) (hpair : pre → pair.isInvalid = false) :
    Covers I a pre [] (fun _ => True) (Walk.declareBinding I.env name ty pair isRef span) := by
  refine (stackOnly ty).bind fun b => ite (fun _ => ?_) fun _ => ?_
  · refine (rejectedInAsync _ _ _).bind fun rejected => declare fun h => ?_
    rw [h.2]
    exact hpair h.1.1
  · exact declare fun h => hpair h.1

/-- A parameter is given up only with an error. -/
theorem bindParam (checkShapes : Bool) (param : Param) (contract : ParamContract) :
    Covers I a pre [] (fun _ => True) (Walk.bindParam I.env checkShapes param contract) := by
  have known : Covers I a pre [] (fun b => b = true) (Pure.pure true) := .pure fun _ => rfl
  unfold Walk.bindParam
  refine ite (fun _ => (checkShape _ _).bind fun _ => ?_) fun _ => known.bind fun _ => ?_
  all_goals
    refine look (fun _ s t h => by rw [h.ctx, h.forbidsLocals_eq]) fun s _ => ?_
    refine ite (fun hb => ?_) fun _ => ite (fun _ => ?_) fun _ => ite (fun _ => ?_) fun _ => ?_
    · exact declare fun h => by simp [h.1.2] at hb
    · exact (report _ _).bind fun _ => declare fun h => h.2.elim
    · exact (report _ _).bind fun _ => declare fun h => h.2.elim
    · exact declare fun _ => rfl

theorem forM {β : Type} {f : β → Walk Unit} {l : List β}
    (h : ∀ x, x ∈ l → Covers I a pre [] (fun _ => True) (f x)) :
    Covers I a pre [] (fun _ => True) (l.forM f) := by
  induction l with
  | nil => exact .pure fun _ => trivial
  | cons x rest ih =>
    refine (h x (List.mem_cons_self ..)).bind fun _ => ?_
    exact (ih fun y hy => h y (List.mem_cons_of_mem _ hy)).given And.left

theorem bindParams (checkShapes : Bool) (params : List Param) (contracts : List ParamContract) :
    Covers I a pre [] (fun _ => True) (Walk.bindParams I.env checkShapes params contracts) :=
  forM fun x _ => bindParam checkShapes x.1 x.2

/-- The variable of a name is one of some scope. -/
theorem exists_scope_of_lookupIn {name : String} {crossed : Option ScopeKind}
    {scopes : List Scope} {found : Lookup} (h : Context.lookupIn name crossed scopes = some found) :
    ∃ scope ∈ scopes, found.info ∈ scope.locals := by
  induction scopes generalizing crossed with
  | nil => simp [Context.lookupIn] at h
  | cons top rest ih =>
    simp only [Context.lookupIn] at h
    cases hl : Context.lastLocal top name with
    | some info =>
      rw [hl] at h
      obtain rfl := Option.some.inj h
      exact ⟨top, List.mem_cons_self .., List.mem_reverse.1 (List.mem_of_find?_eq_some hl)⟩
    | none =>
      rw [hl] at h
      obtain ⟨scope, hmem, hinfo⟩ := ih h
      exact ⟨scope, List.mem_cons_of_mem _ hmem, hinfo⟩

/-- A variable that is found was not given up. -/
theorem lookup_isInvalid {s : WalkState} (h : s.Intact) {name : String} {found : Lookup}
    (hf : s.ctx.lookup name = some found) : found.info.pair.isInvalid = false := by
  obtain ⟨scope, hmem, hinfo⟩ := exists_scope_of_lookupIn hf
  exact h.locals scope hmem _ hinfo

theorem readPrimaryParam (param : Param) (span : Span) :
    Covers I a pre [] (fun pair => pair.isInvalid = false)
      (Walk.readPrimaryParam I.env param span) := by
  refine (stackOnly _).bind fun b => ite (fun _ => ?_) fun _ => ?_
  · exact (report _ _).bind fun _ => .pure fun h => h.2.elim
  · exact .pure fun _ => rfl

/-- A variable is given up only with an error. -/
theorem readVariable (name : String) (span : Span) :
    Covers I a pre [] (fun pair => pair.isInvalid = false)
      (Walk.readVariable I.env name span) := by
  refine look (fun _ s t h => by rw [h.ctx]) fun s _ => ?_
  cases hf : s.ctx.lookup name with
  | some found =>
    refine ite (fun _ => ?_) fun _ => ?_
    · exact (report _ _).bind fun _ => .pure fun h => h.2.elim
    · exact .pure fun ⟨_, _, _, hi⟩ => lookup_isInvalid hi hf
  | none =>
    cases I.env.member.owner.primaryParams.find? fun q => decide (q.name = name) with
    | some param => exact readPrimaryParam param span
    | none => exact (report _ _).bind fun _ => .pure fun h => h.2.elim

/-- The receiver of the innermost function was not given up. -/
theorem thisPair_isInvalid {s : WalkState} (h : I.Matches a s) {pair : ScopePair}
    (hp : s.thisPair = some pair) : pair.isInvalid = false := by
  obtain ⟨f, hf, hpair⟩ := Option.bind_eq_some_iff.1 hp
  exact h.receivers f (List.mem_of_head? hf) pair hpair

/-- Nor was the receiver that a nested function takes over, unless it is static. -/
theorem nestedThis_isInvalid {s : WalkState} (h : I.Matches a s) {isStatic : Bool}
    {pair : ScopePair} (hp : (if isStatic then none else s.thisPair) = some pair) :
    pair.isInvalid = false := by
  split at hp
  · exact absurd hp (Option.some_ne_none pair).symm
  · exact thisPair_isInvalid h hp

/-- The receiver is given up only with an error. -/
theorem readThis (span : Span) :
    Covers I a pre [] (fun pair => pair.isInvalid = false) (Walk.readThis I.env span) := by
  refine look (fun _ s t h => by rw [h.thisPair_eq, h.ctx]) fun s _ => ?_
  cases hp : s.thisPair with
  | none => exact .pure fun _ => rfl
  | some pair =>
    refine ite (fun _ => ?_) fun _ => ?_
    · exact (report _ _).bind fun _ => .pure fun h => h.2.elim
    · exact .pure fun ⟨_, _, hs, _⟩ => thisPair_isInvalid hs hp

/-- A local variable is given up only with its initial value. -/
theorem localPair_isInvalid (decl : LocalDecl) (stackOnly : Bool) {init : Option ScopePair}
    (h : ∀ pair, init = some pair → pair.isInvalid = false) :
    (Walk.localPair decl stackOnly init).isInvalid = false := by
  have hany : init.any ScopePair.isInvalid = false := by
    cases init with
    | none => rfl
    | some pair => exact h pair rfl
  simp [Walk.localPair, hany]

/-- A local variable is given up only with its initial value. -/
theorem declareLocal (decl : LocalDecl) {wellFormed : Bool} (reportAsync : Bool)
    {init : Option ScopePair} (hw : pre → wellFormed = true)
    (hinit : pre → ∀ pair, init = some pair → pair.isInvalid = false) :
    Covers I a pre [] (fun _ => True)
      (Walk.declareLocal I.env decl wellFormed reportAsync init) := by
  refine (stackOnly _).bind fun b => ite (fun _ => ?_) fun _ => ?_
  · refine (rejectedInAsync _ _ _).bind fun rejected => declare fun h => ?_
    rw [h.2, hw h.1.1]
    exact localPair_isInvalid decl b (hinit h.1.1)
  · refine declare fun h => ?_
    rw [hw h.1]
    exact localPair_isInvalid decl b (hinit h.1)

/-! ## Sinks -/

/-- What is assigned without an error lives as long as what it is assigned to. -/
theorem checkAssignment (target value : Expr) (byRef : Bool) {t v : ScopePair}
    (hv : pre → t.isInvalid = false ∧ v.isInvalid = false) :
    Covers I a pre []
      (fun _ => (byRef = true → t.ref ≤ v.ref) ∧
        (I.strict → I.types.stackOnly target.ty = true → t.value ≤ v.value))
      (Walk.checkAssignment I.env target value byRef t v) := by
  refine look (fun hk s t h => by
    simp only [Walk.assignmentError, h.stackOnly_eq hk, h.facts]) fun s _ => ?_
  refine (passes _ _).bind_nil fun _ => .pure fun ⟨⟨hpre, hI, hs, _⟩, _, hnone⟩ => ?_
  obtain ⟨ht, hv⟩ := hv hpre
  simp only [Walk.assignmentError, ht, hv, Bool.or_false, Bool.false_eq_true, if_false] at hnone
  split at hnone
  · simp at hnone
  · next href =>
    split at hnone
    · simp at hnone
    · next hvalue =>
      refine ⟨fun hb => ?_, fun hst hso => ?_⟩
      · simpa [hb] using href
      · rw [hs.stackOnly_eq hI hst] at hvalue
        simpa [hso] using hvalue

/-- What is returned without an error lives as long as the caller may look at it. -/
theorem checkReturned (value : Expr) {pair : ScopePair} (hv : pre → pair.isInvalid = false) :
    Covers I a pre []
      (fun _ => (a.returnsByRef = true → .returnOnly ≤ pair.ref) ∧
        (I.strict → I.types.stackOnly a.retTy = true → .returnOnly ≤ pair.value))
      (Walk.checkReturned value pair) := by
  refine look (fun _ s t h => by rw [h.ctx, h.facts]) fun s _ => ?_
  cases hf : s.ctx.function with
  | none =>
    refine .pure fun ⟨_, _, hs, _⟩ => ?_
    obtain ⟨f, hf', _⟩ := hs.function
    rw [hf] at hf'
    exact absurd hf' (by simp)
  | some frame =>
    refine (passes _ _).bind_nil fun _ => .pure fun ⟨⟨hpre, _, hs, _⟩, _, hnone⟩ => ?_
    obtain ⟨f, hf', href, hstack⟩ := hs.function
    obtain rfl : frame = f := Option.some.inj (hf.symm.trans hf')
    obtain ⟨hr, hvalue⟩ := Walk.returnable_of_returnError (hv hpre) hnone
    exact ⟨fun hb => hr (href.trans hb), fun hst hso => hvalue ((hstack hst).trans hso)⟩

/-- A comparison is accepted. -/
theorem settle (id : NodeId) (span : Span) (verdict : Verdict) :
    Covers I a pre [] (fun b => b = true) (Walk.settle id span verdict) := by
  cases verdict with
  | plain => exact .pure fun _ => rfl
  | lowered test => exact (recordNullTest id test).bind fun _ => .pure fun _ => rfl
  | refused error => exact (report error span).bind fun _ => .pure fun h => h.2.elim

/-- A comparison that is not accepted leaves an error. -/
theorem errors_settle {id : NodeId} {span : Span} {verdict : Verdict} {s : WalkState}
    (h : (Walk.settle id span verdict).answer s = false) :
    ((Walk.settle id span verdict).after s).errors ≠ [] := by
  cases verdict with
  | plain => exact absurd (show true = false from h) (by decide)
  | lowered test => exact absurd (show true = false from h) (by decide)
  | refused error => exact List.append_ne_nil_of_right_ne_nil _ (List.cons_ne_nil _ _)

/-! ## Operands and callees -/

/-- An operand has the record of its expression. -/
theorem operandOf (e : Expr) (mode : RefKind) {check : Walk ScopePair}
    (h : Covers I a pre (Site.ofExpr a e)
      (fun pair => pair.isInvalid = false ∧ I.facts.pair? e.id = some pair) check) :
    Covers I a pre (Site.ofExpr a e)
      (fun op => op.pair.isInvalid = false ∧
        (I.strict → I.facts.Sure e ∧ op = I.types.operand I.facts mode e))
      (Walk.operandOf I.env e mode check) := by
  -- However the pair was found, it is the recorded one.
  have main {m : Walk ScopePair} (hm : Covers I a pre (Site.ofExpr a e)
      (fun pair => pair.isInvalid = false ∧ I.facts.pair? e.id = some pair) m) :
      Covers I a pre (Site.ofExpr a e)
        (fun op => op.pair.isInvalid = false ∧
          (I.strict → I.facts.Sure e ∧ op = I.types.operand I.facts mode e))
        (m >>= fun pair => Walk.stackOnly I.env e.ty >>= fun stackOnly =>
          Pure.pure (Operand.ofExpr e pair stackOnly mode e.isOutVar)) := by
    refine hm.bind_nil fun pair => (stackOnly _).bind fun b => .pure fun ⟨⟨_, hv, hp⟩, hb⟩ => ?_
    refine ⟨hv, fun hst => ⟨⟨pair, hp, hv⟩, ?_⟩⟩
    rw [TypeEnv.operand, hp, hb hst]
    rfl
  rcases e with ⟨id, kind, ty, span⟩
  cases kind with
  | outVar name =>
    refine main (expr (m := Pure.pure .confined) (.pure fun _ => ⟨rfl, fun _ => ?_⟩))
    trivial
  | _ => exact main h

/-- Members that references name are members of the program. -/
theorem mem_of_member? {p : Program} {r : MemberRef} {m : Member} (h : p.member? r = some m) :
    m ∈ p.members := by
  obtain ⟨owner, _, hfind⟩ := Option.bind_eq_some_iff.1 h
  obtain ⟨t, _, hdeclared⟩ := List.exists_of_findSome?_eq_some hfind
  obtain ⟨part, hpart, hm⟩ := List.exists_of_findSome?_eq_some hdeclared
  obtain ⟨d, hd, rfl⟩ := Option.map_eq_some_iff.1 hm
  have htypes : part ∈ p.types := (List.mem_filter.1 hpart).1
  exact List.mem_flatMap.2 ⟨part, htypes, List.mem_map_of_mem (List.mem_of_find?_eq_some hd)⟩

/-- Local functions that references mean are declared in some scope. -/
theorem exists_scope_of_target? {s : WalkState} {env : Surroundings} {r : MemberRef} {d : FnDecl}
    (h : s.target? env r = some (.localFunction d)) :
    ∃ scope ∈ s.ctx.scopes, scope.functions.get? r.name = some d := by
  simp only [WalkState.target?] at h
  split at h
  · next decl hl =>
    obtain rfl : decl = d := by simpa using h
    split at hl
    · exact List.exists_of_findSome?_eq_some hl
    · simp at hl
  · split at h
    · obtain ⟨_, _, he⟩ := Option.map_eq_some_iff.1 h
      simp at he
    · obtain ⟨_, _, he⟩ := Option.map_eq_some_iff.1 h
      simp at he

/-- Local functions that references mean are those of the walked member. -/
theorem mem_localFunctions_of_target? {s : WalkState} {env : Surroundings} (hs : s.Placed env)
    {r : MemberRef} {d : FnDecl} (h : s.target? env r = some (.localFunction d)) :
    d ∈ env.member.localFunctions := by
  obtain ⟨scope, hscope, hfound⟩ := exists_scope_of_target? h
  exact hs.functions scope hscope _ _ hfound

/-- Members that references mean are members of the program. -/
theorem mem_members_of_target? {s : WalkState} {env : Surroundings} {r : MemberRef} {m : Member}
    (h : s.target? env r = some (.member m)) : m ∈ env.program.members := by
  simp only [WalkState.target?] at h
  split at h
  · simp at h
  · split at h
    · obtain ⟨m', hm', he⟩ := Option.map_eq_some_iff.1 h
      obtain rfl : m' = m := by simpa using he
      obtain ⟨q, _, hbound⟩ := Option.bind_eq_some_iff.1 hm'
      obtain ⟨bound, _, hfound⟩ := List.exists_of_findSome?_eq_some hbound
      split at hfound
      · exact mem_of_member? hfound
      · simp at hfound
    · obtain ⟨m', hm', he⟩ := Option.map_eq_some_iff.1 h
      obtain rfl : m' = m := by simpa using he
      exact mem_of_member? hm'

/-- A reference means what it means at the point, with the contract of that declaration. -/
theorem resolving {r : MemberRef} {span : Span} {Q : α → Prop} {k : Option Callee → Walk α}
    (hk : ∀ callee : Callee, I.env.Owner callee.key →
      Covers I a (pre ∧ callee.contract.valid = true ∧ (I.strict → ∃ t, a.target? I.env r = some t ∧
        callee.contract = t.contract I.env I.caps)) xs Q (k (some callee)))
    (hnone : Covers I a False xs Q (k none)) :
    Covers I a pre xs Q (Walk.resolve I.env r span >>= k) := by
  unfold Walk.resolve
  rw [bind_assoc]
  refine look (fun _ s t h => by rw [h.target?_eq]) fun s hs => ?_
  cases ht : s.target? I.env r with
  | none =>
    rw [bind_assoc]
    exact (report _ _).nil_bind fun _ => hnone.given And.right
  | some t =>
    cases t with
    | localFunction d =>
      have hd := mem_localFunctions_of_target? hs ht
      rw [bind_assoc]
      refine (localContract hd).nil_bind fun c => ?_
      refine (hk ⟨c, d, I.env.localKey d⟩ (Surroundings.owner_localKey hd)).given ?_
      rintro ⟨⟨hpre, _, hs, _⟩, hv, hc⟩
      exact ⟨hpre, hv, fun hst => ⟨_, (hs.target?_eq r).symm.trans ht, hc hst⟩⟩
    | member m =>
      have hm := mem_members_of_target? ht
      rw [bind_assoc]
      refine (memberContract hm).nil_bind fun c => ?_
      refine (hk ⟨c, m.decl, m.key⟩ (Surroundings.owner_key hm)).given ?_
      rintro ⟨⟨hpre, _, hs, _⟩, hv, hc⟩
      exact ⟨hpre, hv, fun hst => ⟨_, (hs.target?_eq r).symm.trans ht, hc hst⟩⟩

/-! ## Calls -/

/-- The variables of a call are given up only with its result. -/
theorem bindOutVars (derived : Level) {isInvalid : Bool} (args : List Operand)
    (h : pre → isInvalid = false) :
    Covers I a pre [] (fun _ => True) (Walk.bindOutVars I.env derived isInvalid args) := by
  refine forM fun op _ => ?_
  unfold Walk.bindOutVar
  split
  · refine declareBinding _ _ _ _ fun hpre => ?_
    rw [h hpre]
    split
    · next hi => exact absurd hi (by decide)
    · split <;> rfl
  · exact .pure fun _ => trivial

/-- A call with operands that were not given up keeps them apart, and its result is not given up. -/
theorem invoke {c : Contract} {receiver : Option Operand} {args : List Operand}
    (resultTy : TypeRef) (span : Span)
    (hv : pre → c.valid = true ∧ ∀ op ∈ receiver.toList ++ args, op.pair.isInvalid = false) :
    Covers I a pre []
      (fun o => o.result.isInvalid = false ∧ c.KeepsApart receiver args)
      (Walk.invoke I.env c receiver args resultTy span) := by
  refine ite (fun hc => ?_) fun _ => ite (fun hany => ?_) fun _ => ?_
  · exact .pure fun h => by simp [(hv h).1] at hc
  · have hnot : ¬ pre := fun h => by
      obtain ⟨op, hop, hinv⟩ := List.any_eq_true.1 hany
      rw [(hv h).2 op hop] at hinv
      exact absurd hinv (by decide)
    exact (bindOutVars _ _ fun h => absurd h hnot).bind fun _ => .pure fun h => absurd h.1 hnot
  · refine look (fun hk s t h => by rw [h.facts]) fun s _ => ?_
    refine (reportAll _).bind fun _ => (stackOnly _).bind fun b => ?_
    refine (bindOutVars _ _ fun _ => rfl).bind fun _ => .pure fun ⟨⟨⟨⟨hpre, _⟩, herr⟩, _⟩, _⟩ => ?_
    exact ⟨c.resultPair_isInvalid _ _, Contract.keepsApart_of_mixingErrors (hv hpre).2 herr⟩

/-- The operands of a call of what a reference means are kept apart. -/
def CallSafe (I : Inspection) (a : Point) (r : MemberRef) (receiver : Option Operand)
    (args : List Operand) : Prop :=
  I.strict → ∃ t, a.target? I.env r = some t ∧ (t.contract I.env I.caps).KeepsApart receiver args

/-- Operands that the contract of what a reference means keeps apart. -/
theorem callSafe_of_keepsApart {r : MemberRef} {c : Contract} {receiver : Option Operand}
    {args : List Operand}
    (hc : I.strict → ∃ t, a.target? I.env r = some t ∧ c = t.contract I.env I.caps)
    (hk : c.KeepsApart receiver args) : CallSafe I a r receiver args := by
  intro hst
  obtain ⟨t, ht, rfl⟩ := hc hst
  exact ⟨t, ht, hk⟩

/-- A receiver that was not given up, and no arguments. -/
theorem receiver_isInvalid {op : Operand} (h : op.pair.isInvalid = false) :
    ∀ o ∈ (some op).toList ++ [], o.pair.isInvalid = false := by
  intro o ho
  simp only [Option.toList_some, List.append_nil, List.mem_singleton] at ho
  rw [ho]
  exact h

/-- A call of what a reference means keeps its operands apart. -/
theorem invokeRef {r : MemberRef} {receiver : Option Operand} {args : List Operand}
    (resultTy : TypeRef) (span : Span)
    (hv : pre → ∀ op ∈ receiver.toList ++ args, op.pair.isInvalid = false) :
    Covers I a pre []
      (fun pair => pair.isInvalid = false ∧ CallSafe I a r receiver args)
      (Walk.invokeRef I.env r receiver args resultTy span) := by
  refine resolving (fun callee _ => ?_) (.pure False.elim)
  refine (invoke resultTy span fun h => ⟨h.2.1, hv h.1⟩).bind fun o => .pure ?_
  rintro ⟨⟨_, _, hc⟩, ho, hk⟩
  exact ⟨ho, callSafe_of_keepsApart hc hk⟩

/-- A read through a getter keeps its operands apart. -/
theorem readProperty {getter : MemberRef} {receiver : Option Operand} {args : List Operand}
    (resultTy : TypeRef) (span : Span)
    (hv : pre → ∀ op ∈ receiver.toList ++ args, op.pair.isInvalid = false) :
    Covers I a pre []
      (fun pair => pair.isInvalid = false ∧ CallSafe I a getter receiver args)
      (Walk.readProperty I.env getter receiver args resultTy span) := by
  refine resolving (fun callee _ => ?_) (.pure False.elim)
  refine (invoke resultTy span fun h => ⟨h.2.1, hv h.1⟩).bind fun o => ?_
  refine (stackOnly _).bind fun b => ite (fun _ => ?_) fun _ => ?_
  · refine (noteCopy _).bind fun _ => .pure ?_
    rintro ⟨⟨⟨⟨_, _, hc⟩, ho, hk⟩, _⟩, _⟩
    exact ⟨ho, callSafe_of_keepsApart hc hk⟩
  · refine .pure ?_
    rintro ⟨⟨⟨_, _, hc⟩, ho, hk⟩, _⟩
    exact ⟨ho, callSafe_of_keepsApart hc hk⟩

/-- The type arguments of a call are well formed. -/
theorem checkTypeArgs {callee : Callee} (ho : I.env.Owner callee.key) (typeArgs : List TypeRef)
    (span : Span) :
    Covers I a pre [] (fun _ => True) (Walk.checkTypeArgs I.env callee typeArgs span) := by
  refine look (fun hk s t h => by
    simp only [h.allTypeErrors_eq hk, h.argErrors_eq hk ho]) fun s _ => ?_
  exact (reportShapes _).weaken fun _ _ _ => trivial

/-- The disposal of something that was not given up. -/
theorem disposeOf (dispose : Option MemberRef) {op : Operand} (span : Span)
    (hv : pre → op.pair.isInvalid = false) :
    Covers I a pre [] (fun _ => True) (Walk.disposeOf I.env dispose op span) := by
  cases dispose with
  | none => exact .pure fun _ => trivial
  | some r =>
    refine scope rfl ?_
    exact (invokeRef _ _ fun h => receiver_isInvalid (hv h)).discard.weaken fun _ _ _ => trivial

/-! ## Patterns -/

/-- The variable of a declaration pattern is given up only with its input. -/
theorem bindPattern (name : String) (ty : TypeRef) {input : ScopePair} (span : Span)
    (hv : pre → input.isInvalid = false) :
    Covers I a pre [] (fun _ => True) (Walk.bindPattern I.env name ty input span) := by
  refine (checkShape _ _).bind fun w => (stackOnly _).bind fun b => ?_
  refine declareBinding _ _ _ _ fun ⟨⟨hpre, hw⟩, _⟩ => ?_
  simp only [hv hpre, hw, Bool.not_true, Bool.or_self, Bool.false_eq_true, if_false]
  split
  · exact hv hpre
  · rfl

/-- What a field holds is given up only with its receiver. -/
theorem fieldPair_isInvalid (types : TypeEnv) {receiver : Option (ScopePair × TypeRef)}
    (owner : TypeRef) (name : String) (ty : TypeRef)
    (h : ∀ r, receiver = some r → r.1.isInvalid = false) :
    (types.fieldPair receiver owner name ty).isInvalid = false := by
  cases receiver with
  | none => rfl
  | some r =>
    simp only [TypeEnv.fieldPair, h r rfl, Bool.false_eq_true, if_false]
    split <;> rfl

/-- What a pattern looks at is given up only with its input. -/
theorem accessMember (access : MemberAccess) {input : ScopePair} (receiverTy ty : TypeRef)
    (span : Span) (hv : pre → input.isInvalid = false) :
    Covers I a pre [] (fun pair => pair.isInvalid = false)
      (Walk.accessMember I.env access input receiverTy ty span) := by
  refine look (fun hk s t h => by
    simp only [h.fieldPair_eq hk, h.stackOnly_eq hk]) fun s _ => ?_
  cases access with
  | field owner name =>
    refine .pure fun h => fieldPair_isInvalid _ _ _ _ fun r hr => ?_
    obtain rfl := Option.some.inj hr
    exact hv h.1
  | property getter =>
    exact (readProperty _ _ fun h => receiver_isInvalid (hv h.1)).weaken fun _ _ hq => hq.1

/-- What takes a value apart is called, unless the value was given up. -/
theorem deconstructInput (deconstruct : MemberRef) (componentTys : List TypeRef)
    {input : ScopePair} (inputTy : TypeRef) (span : Span) (hv : pre → input.isInvalid = false) :
    Covers I a pre [] (fun o => ∃ out, o = some out ∧ out.result.isInvalid = false)
      (Walk.deconstructInput I.env deconstruct componentTys input inputTy span) := by
  refine look (fun hk s t h => by simp only [h.stackOnly_eq hk]) fun s _ => ?_
  refine resolving (fun callee _ => ?_) (.pure False.elim)
  refine ite (fun hi => ?_) fun _ => ?_
  · exact .pure fun h => by rw [hv h.1.1] at hi; exact absurd hi (by decide)
  · refine (invoke _ _ fun h => ⟨h.2.1, fun op hop => ?_⟩).bind fun o => .pure fun h =>
      ⟨o, rfl, h.2.1⟩
    simp only [Option.toList_some, List.singleton_append, List.mem_cons, List.mem_map] at hop
    rcases hop with rfl | ⟨_, _, rfl⟩
    · exact hv h.1.1
    · rfl

/-- A component is given up only with the call that takes it out. -/
theorem componentPair_isInvalid {outcome : Option Outcome} (stackOnly : Bool)
    (h : ∃ out, outcome = some out ∧ out.result.isInvalid = false) :
    (Walk.componentPair outcome stackOnly).isInvalid = false := by
  obtain ⟨out, rfl, ho⟩ := h
  simp only [Walk.componentPair, ho, Bool.false_eq_true, if_false]
  split <;> rfl

/-! ## Blocks and functions -/

/-- The local functions that the statements of a body declare are those of the member. -/
theorem mem_localFunctions_of_direct {m : Member} {b : Point} {stmts : List Stmt}
    (hsub : Site.ofStmts b stmts ⊆ m.sites) :
    ∀ d ∈ directFunctions stmts, d ∈ m.localFunctions := by
  intro d hd
  obtain ⟨x, hx, hxd⟩ := Site.exists_of_mem_directFunctions hd
  exact List.mem_filterMap.2 ⟨x, hsub hx, hxd⟩

/-- A block covers the sites of its statements. -/
theorem block {stmts : List Stmt} {body : Walk Unit}
    (hb : Covers I (a.block stmts) pre (Site.ofStmts (a.block stmts) stmts) (fun _ => True) body) :
    Covers I a pre (Site.ofStmts (a.block stmts) stmts) (fun _ => True)
      (Walk.block stmts body) :=
  inScope rfl mem_localFunctions_of_direct hb

/-- A lambda covers the sites of its statements. -/
theorem lambdaOver (fn : Lambda) {body : Walk Unit}
    (hb : Covers I (a.lambda fn.retTy fn.body) True
      (Site.ofStmts (a.lambda fn.retTy fn.body) fn.body) (fun _ => True) body) :
    Covers I a pre (Site.ofStmts (a.lambda fn.retTy fn.body) fn.body) (fun _ => True)
      (Walk.lambdaOver I.env fn body) := by
  refine look (fun hk s t h => by
    simp only [Walk.lambdaFrame, h.stackOnly_eq hk, h.thisPair_eq]) fun s _ => ?_
  refine inFunction rfl false fn.retTy ?_ mem_localFunctions_of_direct (bindParams _ _ _)
    (hb.given fun _ => trivial)
  rintro ⟨_, hI, hs, _⟩
  exact ⟨rfl, fun hst => congrFun (hs.stackOnly_eq hI hst) fn.retTy,
    fun pair hp => nestedThis_isInvalid hs hp⟩

/-- What stands at no site of the member is covered by any walk. -/
theorem of_not_subset {Q : α → Prop} {m : Walk α} (h : ¬ xs ⊆ I.env.member.sites) :
    Covers I a pre xs Q m where
  proper hsub := absurd hsub h
  reaches hsub := absurd hsub h
  frame hsub := absurd hsub h
  run hsub := absurd hsub h

/-- A local function covers its own site and those of its statements. -/
theorem localFunctionOver (id : NodeId) (span : Span) (decl : FnDecl) {body : Walk Unit}
    (hb : Covers I (a.localFunction decl) True (Site.ofBody (a.localFunction decl) decl.body)
      (fun _ => True) body) :
    Covers I a pre (⟨a, .stmt ⟨id, .localFunction decl, span⟩⟩ ::
        Site.ofBody (a.localFunction decl) decl.body) (fun _ => True)
      (Walk.localFunctionOver I.env decl body) := by
  by_cases hd : decl ∈ I.env.member.localFunctions
  swap
  · refine of_not_subset fun hsub => hd ?_
    exact List.mem_filterMap.2 ⟨_, hsub (List.mem_cons_self ..), rfl⟩
  have hdirect (hsub : Site.ofBody (a.localFunction decl) decl.body ⊆ I.env.member.sites) :
      ∀ d ∈ directFunctions (decl.body.getD []), d ∈ I.env.member.localFunctions := by
    cases hbody : decl.body with
    | none => simp [directFunctions]
    | some stmts =>
      rw [hbody, Site.ofBody] at hsub
      exact mem_localFunctions_of_direct hsub
  -- What follows the check of annotations.
  let rest : Walk Unit :=
    Walk.fileTypeParams I.env decl >>= fun _ =>
      Walk.reportShapes (cycleErrors decl.typeParams ++
        decl.typeParams.flatMap (TypeParam.clauseErrors I.env.runtime)) >>= fun _ =>
      Walk.localContract I.env decl >>= fun contract =>
      get >>= fun s => Walk.withGenerics (s.localScope I.env decl)
        (Walk.inFunction .localFunction (Walk.localFrame s decl contract)
          (Walk.bindParams I.env true decl.params contract.params >>= fun _ =>
            Walk.declareFunctions (decl.body.getD []) >>= fun _ => body))
  have hform : Walk.localFunctionOver I.env decl body =
      (Walk.reportAll (placementErrors I.env.member.owner decl (I.env.localKey decl) true) >>=
        fun _ => rest) := rfl
  have hrest : Covers I a pre (Site.ofBody (a.localFunction decl) decl.body) (fun _ => True)
      rest := by
    refine (fileTypeParams hd).nil_bind fun _ => (reportShapes _).nil_bind fun _ =>
      (localContract hd).nil_bind fun contract => ?_
    refine inLocalScope (fun _ => hd) (fun _ s t h => by
      simp only [Walk.localFrame, h.thisPair_eq]) fun s _ => ?_
    refine inFunction rfl decl.ret.isByRef decl.ret.ty ?_ hdirect (bindParams _ _ _)
      (hb.given fun _ => trivial)
    rintro ⟨⟨_, _, hc⟩, _, hs⟩
    refine ⟨rfl, fun hst => ?_, fun pair hp => nestedThis_isInvalid hs hp⟩
    rw [Walk.localFrame, hc hst]
    rfl
  rw [hform]
  refine head rfl ?_ (((reportAll _).nil_bind fun _ => hrest.given And.left).weaken
    fun _ _ _ => ⟨trivial, fun _ => trivial⟩)
  intro hsub s hs he d hxd
  obtain rfl : decl = d := Option.some.inj hxd
  have hp : s.Progress I.env ((Walk.reportAll (placementErrors I.env.member.owner decl
    (I.env.localKey decl) true)).after s) := (Walk.Proper.reportAll _).progress s hs
  have hr := (hrest.proper (List.cons_subset.1 hsub).2).progress _ (hp.placed hs)
  exact (List.append_eq_nil_iff.1 (hr.errors_eq_nil he)).2

/-! ## Regions and iterations -/

theorem refusesStackOnly (isAwait : Bool) :
    Covers I a pre [] (fun _ => True) (Walk.refusesStackOnly isAwait) :=
  look (fun _ s t h => by rw [h.forbidsLocals_eq]) fun _ _ => .pure fun _ => trivial

/-- A region with a resource covers the sites of its statements. -/
theorem usingOver (region : UsingStmt) {op : Operand} (ty : TypeRef) (span : Span)
    {body : Walk Unit} (hv : pre → op.pair.isInvalid = false)
    (hb : Covers I (a.block region.body) True (Site.ofStmts (a.block region.body) region.body)
      (fun _ => True) body) :
    Covers I a pre (Site.ofStmts (a.block region.body) region.body) (fun _ => True)
      (Walk.usingOver I.env region op ty span body) := by
  have hblock (pre' : Prop) : Covers I a pre' (Site.ofStmts (a.block region.body) region.body)
      (fun _ => True) (Walk.block region.body body) :=
    block (hb.given fun _ => trivial)
  refine (refusesStackOnly _).nil_bind fun refused => ite (fun _ => ?_) fun _ => ?_
  · exact (report _ _).nil_bind fun _ => hblock _
  · exact (hblock _).bind_nil fun _ => disposeOf _ _ fun h => hv h.1.1

/-- A variable that was just declared is found. -/
theorem lookup_declare {c : Context} (h : c.scopes ≠ []) (info : LocalInfo) :
    (c.declare info).lookup info.name = some ⟨info, none⟩ := by
  rcases c with ⟨_ | ⟨top, rest⟩, frames⟩
  · exact absurd rfl h
  · simp [Context.declare, Context.modifyTop, Context.lookup, Context.lookupIn, Context.lastLocal]

/-- A refusal leaves the scopes as they are. -/
theorem ctx_rejectedInAsync (name : String) (ty : TypeRef) (span : Span) (s : WalkState) :
    ((Walk.rejectedInAsync name ty span).after s).ctx = s.ctx := by
  change ((if s.forbidsLocals = true then
      Walk.report (.asyncOrIteratorLocal name ty.display) span >>= fun _ =>
        Pure.pure s.forbidsLocals
    else Pure.pure s.forbidsLocals : Walk Bool).after s).ctx = s.ctx
  split <;> rfl

/-- A local variable that was just declared is found. -/
theorem exists_lookup_declareLocal (env : Surroundings) (decl : LocalDecl)
    (wellFormed reportAsync : Bool) (init : Option ScopePair) {s : WalkState}
    (h : s.ctx.scopes ≠ []) :
    ∃ found, ((Walk.declareLocal env decl wellFormed reportAsync init).after s).ctx.lookup
      decl.name = some found := by
  let stackOnly : Bool := (s.types env).stackOnly decl.ty
  let info (rejected : Bool) : LocalInfo :=
    { name := decl.name, ty := decl.ty, stackOnly, isRef := decl.refKind.isByRef
      isScoped := decl.isScoped, kind := .declared
      pair := if !wellFormed || rejected then .invalid else Walk.localPair decl stackOnly init }
  have hform : (Walk.declareLocal env decl wellFormed reportAsync init).after s =
      (if (reportAsync && stackOnly) = true then
          Walk.rejectedInAsync decl.name decl.ty decl.span >>= fun rejected =>
            Walk.declare (info rejected)
        else Walk.declare (info false)).after s := rfl
  -- The scopes are the same when the variable is declared, whether it is refused or not.
  have hctx : ∃ rejected, ((Walk.declareLocal env decl wellFormed reportAsync init).after s).ctx =
      s.ctx.declare (info rejected) := by
    rw [hform]
    split
    · let refusal : Walk Bool := Walk.rejectedInAsync decl.name decl.ty decl.span
      refine ⟨refusal.answer s, ?_⟩
      change (refusal.after s).ctx.declare (info (refusal.answer s)) = _
      rw [ctx_rejectedInAsync]
    · exact ⟨false, rfl⟩
  obtain ⟨rejected, hc⟩ := hctx
  exact ⟨⟨info rejected, none⟩, hc ▸ lookup_declare h (info rejected)⟩

/-- A local variable that was just declared is the resource of its region. -/
theorem thenResource (decl : LocalDecl) {m : Walk Unit}
    (hm : Covers I a pre xs (fun _ => True) m)
    (hf : xs ⊆ I.env.member.sites → ∀ s : WalkState, s.Placed I.env → s.ctx.scopes ≠ [] →
      ∃ found, (m.after s).ctx.lookup decl.name = some found) :
    Covers I a pre xs (fun op => op.pair.isInvalid = false)
      (m >>= fun _ => Walk.declaredResource I.env decl) := by
  have hread (pre' : Prop) : Covers I a pre' [] (fun _ => True)
      (Walk.declaredResource I.env decl) :=
    look (fun hk s t h => by simp only [h.ctx, h.stackOnly_eq hk]) fun s _ =>
      .pure fun _ => trivial
  have h := hm.bind_nil fun _ => hread _
  refine ⟨h.proper, h.reaches, h.frame, fun hsub hI hpre s hs hi hfresh he hw => ?_⟩
  obtain ⟨_, hi', hr⟩ := h.run hsub hI hpre s hs hi hfresh he hw
  obtain ⟨found, hfound⟩ := hf hsub s hs.placed hs.enclosed
  refine ⟨?_, hi', hr⟩
  have hpair : ((m >>= fun _ => Walk.declaredResource I.env decl).answer s).pair =
      found.info.pair := by
    unfold Walk.declaredResource
    simp only [Walk.answer_bind, Walk.answer_get, Walk.after_get, hfound]
    rfl
  rw [hpair]
  exact lookup_isInvalid (s := m.after s) hi' hfound

/-- The variable of an iteration, or the pattern that takes the element apart. -/
theorem bindIteration (loop : ForeachStmt) {matchElement : ScopePair → Walk Unit}
    {element : ScopePair} (hv : pre → element.isInvalid = false)
    (hm : Covers I a pre (Site.ofPattern a loop.enumerator.elementTy loop.binding) (fun _ => True)
      (matchElement element)) :
    Covers I a pre
      (match loop.binding with
        | .declaration .. => []
        | _ => Site.ofPattern a loop.enumerator.elementTy loop.binding) (fun _ => True)
      (Walk.bindIteration I.env loop matchElement element) := by
  unfold Walk.bindIteration
  rcases hb : loop.binding
  case declaration name ty span => exact declareBinding _ _ _ _ hv
  all_goals rw [hb] at hm; exact hm

/-- An iteration covers the sites of its pattern and of its statements. -/
theorem foreachOver (loop : ForeachStmt) {collection : ScopePair} (span : Span)
    {matchElement : ScopePair → Walk Unit} {body : Walk Unit}
    (hv : pre → collection.isInvalid = false)
    (hm : ∀ (pre' : Prop) (element : ScopePair), (pre' → element.isInvalid = false) →
      Covers I a pre' (Site.ofPattern a loop.enumerator.elementTy loop.binding) (fun _ => True)
        (matchElement element))
    (hb : Covers I (a.block loop.body) True (Site.ofStmts (a.block loop.body) loop.body)
      (fun _ => True) body) :
    Covers I a pre
      ((match loop.binding with
        | .declaration .. => []
        | _ => Site.ofPattern a loop.enumerator.elementTy loop.binding) ++
        Site.ofStmts (a.block loop.body) loop.body) (fun _ => True)
      (Walk.foreachOver I.env loop collection span matchElement body) := by
  have hblock (pre' : Prop) : Covers I a pre' (Site.ofStmts (a.block loop.body) loop.body)
      (fun _ => True) (Walk.block loop.body body) :=
    block (hb.given fun _ => trivial)
  refine (stackOnly _).nil_bind fun so => (refusesStackOnly _).nil_bind fun refused =>
    scope rfl (ite (fun _ => ?_) fun _ => ?_)
  · refine (report _ _).nil_bind fun _ => ?_
    exact (bindIteration loop (fun h => h.2.elim) (hm _ _ fun h => h.2.elim)).bind fun _ => hblock _
  · refine (stackOnly _).nil_bind fun soc =>
      (invokeRef _ _ fun h => receiver_isInvalid (hv h.1.1.1)).nil_bind fun e =>
        (invokeRef _ _ fun h => receiver_isInvalid h.2.1).discard.nil_bind fun _ =>
          (readProperty _ _ fun h => receiver_isInvalid h.1.2.1).nil_bind fun current => ?_
    have hcurrent (h : current.isInvalid = false) :
        (if loop.byRef then current else current.withRef .currentMethod).isInvalid = false := by
      split
      · exact h
      · exact h
    refine (bindIteration loop (fun h => hcurrent h.2.1) (hm _ _ fun h => hcurrent h.2.1)).bind
      fun _ => (hblock _).bind_nil fun _ => disposeOf _ _ fun h => ?_
    exact h.1.1.1.1.2.1

end Covers

end StackEscape
