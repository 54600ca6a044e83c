import StackEscape.Proofs.Discipline

/-!
# Bodies keep the discipline of pairs

Whatever a body declares — parameters, locals, variables of arguments, of patterns and of iterations
— is free unless it may be stack-only, so every state that the walk comes to keeps the discipline.
So does every expression that it looks at there, and what is returned by reference denotes storage.

## Main definitions

* `StackEscape.Operand.Faithful` — an operand that is stack-only if the type of its expression is.
* `StackEscape.Walk.Disciplines` — a walk that keeps the discipline, with its visits.

## Main results

* `StackEscape.Walk.Disciplines.checkExpr`, `checkPattern`, `checkStmts` — the walk keeps it.
* `StackEscape.Program.pairs_disciplined` — the pairs of a run keep it.
* `StackEscape.Slots.pairs_disciplined_content` — the field of a function that returns a reference
  to it.
-/

set_option autoImplicit false

namespace StackEscape

/-! ## Walks that keep the discipline -/

/-- The operand is stack-only if the type of its expression may be. -/
def Operand.Faithful (types : TypeEnv) (op : Operand) : Prop :=
  ∀ e ∈ op.expr, op.stackOnly = types.stackOnly e.ty

/-- The walk goes from states that keep the discipline to others, and answers as stated. If its
visits are regular, then they keep the discipline too. -/
structure Walk.Disciplines (env : Surroundings) (caps : Capabilities) (ws : List Site)
    (tr : Spot → List Visit) {α : Type} (Q : α → Prop) (m : Walk α) : Prop where
  /-- It keeps the discipline of states. -/
  run : env.Regular caps → ws ⊆ env.member.sites → ∀ s : WalkState, s.Disciplined env caps →
    (m.after s).Disciplined env caps ∧ Q (m.answer s)
  /-- Its visits keep the discipline. -/
  visits : env.Regular caps → ws ⊆ env.member.sites → ∀ p : Spot, p.state.Disciplined env caps →
    (∀ v ∈ tr p, v.IsRegular env (env.types caps)) → ∀ v ∈ tr p, v.Disciplined env (env.types caps)

namespace Walk.Disciplines

variable {env : Surroundings} {caps : Capabilities} {ws ws' : List Site} {tr : Spot → List Visit}
  {α β : Type} {Q : α → Prop} {R : β → Prop}

/-- A walk that covers no sites and comes to no expression. -/
theorem silent {a : Point} {Q' : α → Prop} {m : Walk α}
    (hc : Covers env.inspection a False [] Q' m)
    (h : env.Regular caps → ∀ s : WalkState, s.Disciplined env caps →
      (m.after s).ctx.IsFree ∧ Q (m.answer s)) : Disciplines env caps [] (fun _ => []) Q m where
  run hr _ s hs :=
    ⟨hs.later hr ((hc.proper (List.nil_subset _)).progress s hs.placed) (h hr s hs).1,
      (h hr s hs).2⟩
  visits := by simp

/-- One that declares nothing either. -/
theorem quiet {a : Point} {Q' : α → Prop} {m : Walk α}
    (hc : Covers env.inspection a False [] Q' m) (hd : Declares [] Q m) :
    Disciplines env caps [] (fun _ => []) Q m :=
  silent hc fun _ s hs => ⟨by rw [(hd.after s).ctx_eq]; exact hs.locals, hd.answer s⟩

theorem pure {x : α} (h : Q x) : Disciplines env caps [] (fun _ => []) Q (Pure.pure x : Walk α) :=
  ⟨fun _ _ _ hs => ⟨hs, h⟩, by simp⟩

/-- One walk after the other comes to the visits of both. -/
theorem bind {m : Walk α} {f : α → Walk β} {tr' : α → Spot → List Visit}
    (hm : Disciplines env caps ws tr Q m)
    (hf : ∀ x, Q x → Disciplines env caps ws' (tr' x) R (f x)) :
    Disciplines env caps (ws ++ ws') (fun p => tr p ++ tr' (m.answer p.state) (p.after m)) R
      (m >>= f) where
  run hr hsub s hs := by
    obtain ⟨hws, hws'⟩ := List.append_subset.1 hsub
    obtain ⟨hs', hq⟩ := hm.run hr hws s hs
    exact (hf _ hq).run hr hws' _ hs'
  visits hr hsub p hp hreg v hv := by
    obtain ⟨hws, hws'⟩ := List.append_subset.1 hsub
    obtain ⟨hp', hq⟩ := hm.run hr hws p.state hp
    rcases List.mem_append.1 hv with hv | hv
    · exact hm.visits hr hws p hp (fun w hw => hreg w (List.mem_append_left _ hw)) v hv
    · exact (hf _ hq).visits hr hws' (p.after m) hp'
        (fun w hw => hreg w (List.mem_append_right _ hw)) v hv

/-- The visits may be listed in another way. -/
theorem listed {m : Walk α} {tr' : Spot → List Visit} (hm : Disciplines env caps ws tr Q m)
    (h : ∀ p v, v ∈ tr' p ↔ v ∈ tr p) : Disciplines env caps ws tr' Q m where
  run := hm.run
  visits hr hsub p hp hreg v hv :=
    hm.visits hr hsub p hp (fun w hw => hreg w ((h p w).2 hw)) v ((h p v).1 hv)

/-- The sites may be more. -/
theorem among {m : Walk α} (hm : Disciplines env caps ws tr Q m) (h : ws ⊆ ws') :
    Disciplines env caps ws' tr Q m :=
  ⟨fun hr hsub => hm.run hr (List.Subset.trans h hsub),
    fun hr hsub => hm.visits hr (List.Subset.trans h hsub)⟩

/-- It may be assumed that the member is regular, and that the sites are those of its body. -/
theorem given {m : Walk α}
    (h : env.Regular caps → ws ⊆ env.member.sites → Disciplines env caps ws tr Q m) :
    Disciplines env caps ws tr Q m :=
  ⟨fun hr hsub => (h hr hsub).run hr hsub, fun hr hsub => (h hr hsub).visits hr hsub⟩

/-- Less may be asked of the answer. -/
theorem weaken {Q' : α → Prop} {m : Walk α} (hm : Disciplines env caps ws tr Q m)
    (h : ∀ x, Q x → Q' x) : Disciplines env caps ws tr Q' m :=
  ⟨fun hr hsub s hs => (hm.run hr hsub s hs).imp_right (h _), hm.visits⟩

/-- A walk and then one that comes to no expression. -/
theorem bind_nil {m : Walk α} {f : α → Walk β} (hm : Disciplines env caps ws tr Q m)
    (hf : ∀ x, Q x → Disciplines env caps [] (fun _ => []) R (f x)) :
    Disciplines env caps ws tr R (m >>= f) :=
  ((hm.bind hf).listed fun _ _ => by simp).among
    (List.append_subset.2 ⟨List.Subset.refl _, List.nil_subset _⟩)

/-- A walk that comes to no expression and then another one. -/
theorem nil_bind {m : Walk α} {f : α → Walk β} {tr : α → Spot → List Visit}
    (hm : Disciplines env caps [] (fun _ => []) Q m)
    (hf : ∀ x, Q x → Disciplines env caps ws (tr x) R (f x)) :
    Disciplines env caps ws (fun p => tr (m.answer p.state) (p.after m)) R (m >>= f) :=
  (hm.bind hf).listed fun _ _ => .rfl

/-- Two walks that come to no expression. -/
theorem silent_bind {m : Walk α} {f : α → Walk β} (hm : Disciplines env caps [] (fun _ => []) Q m)
    (hf : ∀ x, Q x → Disciplines env caps [] (fun _ => []) R (f x)) :
    Disciplines env caps [] (fun _ => []) R (m >>= f) :=
  hm.nil_bind hf

theorem discard {m : Walk α} (hm : Disciplines env caps ws tr Q m) :
    Disciplines env caps ws tr (fun _ => True) (Functor.discard m) :=
  hm.bind_nil fun _ _ => .pure trivial

theorem ite {c : Prop} [Decidable c] {m n : Walk α} {tr tr' : Spot → List Visit}
    (hm : Disciplines env caps ws tr Q m) (hn : Disciplines env caps ws tr' Q n) :
    Disciplines env caps ws (fun p => if c then tr p else tr' p) Q (if c then m else n) := by
  split
  · exact hm
  · exact hn

/-- One of two walks that come to no expression. -/
theorem choice {c : Prop} [Decidable c] {m n : Walk α}
    (hm : Disciplines env caps [] (fun _ => []) Q m)
    (hn : Disciplines env caps [] (fun _ => []) Q n) :
    Disciplines env caps [] (fun _ => []) Q (if c then m else n) := by
  split
  · exact hm
  · exact hn

/-- A walk that looks at the state first. -/
theorem look {k : WalkState → Walk α}
    (hk : ∀ s, Disciplines env caps [] (fun _ => []) Q (k s)) :
    Disciplines env caps [] (fun _ => []) Q (get >>= k) :=
  ⟨fun hr hsub s hs => (hk s).run hr hsub s hs, by simp⟩

theorem forM {f : α → Walk Unit} {l : List α}
    (h : ∀ x ∈ l, Disciplines env caps [] (fun _ => []) (fun _ => True) (f x)) :
    Disciplines env caps [] (fun _ => []) (fun _ => True) (l.forM f) := by
  induction l with
  | nil => exact .pure trivial
  | cons x rest ih =>
    exact (h x (List.mem_cons_self ..)).silent_bind fun _ _ =>
      ih fun y hy => h y (List.mem_cons_of_mem _ hy)

/-! ### Names -/

/-- Types mean what they mean in the member. -/
theorem stackOnly (ty : TypeRef) : Disciplines env caps [] (fun _ => [])
    (fun b => b = (env.types caps).stackOnly ty) (Walk.stackOnly env ty) where
  run hr _ _ hs := ⟨hs, congrFun (hs.toExact.stackOnly_eq hr) ty⟩
  visits := by simp

theorem checkShape (ty : TypeRef) (span : Span) :
    Disciplines env caps [] (fun _ => []) (fun _ => True) (Walk.checkShape env ty span) :=
  quiet (Covers.checkShape (a := ⟨[], false, .void⟩) ty span) (.checkShape env ty span)

theorem report (kind : EscapeErrorKind) (span : Span) :
    Disciplines env caps [] (fun _ => []) (fun _ => True) (Walk.report kind span) :=
  quiet (Covers.report (a := ⟨[], false, .void⟩) kind span) (.report kind span)

theorem rejectedInAsync (name : String) (ty : TypeRef) (span : Span) :
    Disciplines env caps [] (fun _ => []) (fun _ => True) (Walk.rejectedInAsync name ty span) :=
  quiet (Covers.rejectedInAsync (a := ⟨[], false, .void⟩) name ty span)
    (.rejectedInAsync name ty span)

/-- A free variable may be declared. -/
theorem declare {info : LocalInfo} (h : info.IsFree) :
    Disciplines env caps [] (fun _ => []) (fun _ => True) (Walk.declare info) :=
  silent (Covers.declare (a := ⟨[], false, .void⟩) False.elim) fun _ _ hs =>
    ⟨hs.locals.declare h, trivial⟩

/-- The variable of a binding is as free as what it is bound to. -/
theorem declareBinding (name : String) (ty : TypeRef) {pair : ScopePair} (isRef : Bool)
    (span : Span) (h : pair.FreeUnless ((env.types caps).stackOnly ty)) :
    Disciplines env caps [] (fun _ => []) (fun _ => True)
      (Walk.declareBinding env name ty pair isRef span) := by
  refine (stackOnly ty).silent_bind fun b hb => ?_
  have hfree (rejected : Bool) :
      ScopePair.FreeUnless b (if rejected then .invalid else pair) := by
    cases rejected with
    | true => exact fun _ _ => rfl
    | false => exact hb ▸ h
  split
  · exact (rejectedInAsync _ _ _).silent_bind fun rejected _ => declare (hfree rejected)
  · exact declare (hfree false)

/-- A parameter is bound by what is promised of it, or given up. -/
theorem bindParam (checkShapes : Bool) (param : Param) {contract : ParamContract}
    (h : contract.pair.FreeUnless contract.stackOnly) :
    Disciplines env caps [] (fun _ => []) (fun _ => True)
      (Walk.bindParam env checkShapes param contract) := by
  have hinvalid : ScopePair.invalid.FreeUnless contract.stackOnly := fun _ _ => rfl
  have bound {pair : ScopePair} (hpair : pair.FreeUnless contract.stackOnly) :
      Disciplines env caps [] (fun _ => []) (fun _ => True)
        (Walk.declare
          { name := param.name, ty := param.ty, pair, stackOnly := contract.stackOnly
            isRef := param.refKind.isByRef, isScoped := param.isScoped, kind := .param }) :=
    declare hpair
  unfold Walk.bindParam
  refine choice ((checkShape _ _).silent_bind fun _ _ => ?_)
    (silent_bind (Q := fun _ => True) (.pure trivial) fun _ _ => ?_)
  all_goals
    refine look fun s => choice (bound hinvalid) (choice ?_ (choice ?_ (bound h)))
    · exact (report _ _).silent_bind fun _ _ => bound hinvalid
    · exact (report _ _).silent_bind fun _ _ => bound hinvalid

theorem bindParams (checkShapes : Bool) (params : List Param) {contracts : List ParamContract}
    (h : ∀ c ∈ contracts, c.pair.FreeUnless c.stackOnly) :
    Disciplines env caps [] (fun _ => []) (fun _ => True)
      (Walk.bindParams env checkShapes params contracts) :=
  forM fun x hx => bindParam checkShapes x.1 (h x.2 (List.of_mem_zip hx).2)

/-- A local variable is free whatever it is initialized with. -/
theorem declareLocal (decl : LocalDecl) (wellFormed reportAsync : Bool) (init : Option ScopePair) :
    Disciplines env caps [] (fun _ => []) (fun _ => True)
      (Walk.declareLocal env decl wellFormed reportAsync init) := by
  refine (stackOnly decl.ty).silent_bind fun b _ => ?_
  have hlocal : (Walk.localPair decl b init).FreeUnless b := by
    intro hstack _
    subst hstack
    unfold Walk.localPair
    split <;> rfl
  have hfree (rejected : Bool) : ScopePair.FreeUnless b
      (if !wellFormed || rejected then .invalid else Walk.localPair decl b init) := by
    split
    · exact fun _ _ => rfl
    · exact hlocal
  split
  · exact (rejectedInAsync _ _ _).silent_bind fun rejected _ => declare (hfree rejected)
  · exact declare (hfree false)

/-- The variable of a pattern is free whatever it is matched with. -/
theorem bindPattern (name : String) (ty : TypeRef) (input : ScopePair) (span : Span) :
    Disciplines env caps [] (fun _ => []) (fun _ => True)
      (Walk.bindPattern env name ty input span) := by
  refine (checkShape ty span).silent_bind fun wellFormed _ =>
    (stackOnly ty).silent_bind fun b hb => ?_
  refine declareBinding name ty false span fun hstack _ => ?_
  subst hb
  rw [hstack]
  split <;> rfl

/-! ### Calls -/

/-- What a call declares in place is free unless it may be stack-only. -/
theorem isFree_callLocals (hr : env.Regular caps) {s : WalkState} (hs : s.Disciplined env caps)
    (r : MemberRef) (receiver : Option Operand) {args : List Operand}
    (hargs : ∀ op ∈ args, op.Faithful (env.types caps)) (errors : List EscapeError) :
    (s.binding (Walk.callLocals s env r receiver args) errors).ctx.IsFree := by
  refine hs.locals.declareAll fun info hinfo => ?_
  obtain ⟨x, hx, rfl⟩ := List.mem_map.1 hinfo
  refine LocalInfo.IsFree.restrict ?_ s.forbidsLocals
  unfold Walk.callLocals at hx
  cases hc : s.contract? env r with
  | none =>
    rw [hc] at hx
    exact absurd hx List.not_mem_nil
  | some c =>
    rw [hc] at hx
    obtain ⟨_, op, hop, _, e, name, hexpr, _, rfl⟩ := Walk.mem_outLocals_iff.1 hx
    intro hstack hvalid
    have hfaithful : op.stackOnly = false := by
      rw [hargs op hop e hexpr, ← hs.toExact.stackOnly_eq hr]
      exact hstack
    dsimp only [LocalInfo.ordinary, Operand.placedPair] at hvalid ⊢
    rw [hfaithful]
    split <;> rfl

variable {a : Point}

/-- A call of a reference, whatever becomes of its result. -/
theorem calling {m : Walk α} {Q' : α → Prop} {r : MemberRef} {receiver : Option Operand}
    {args : List Operand} (hc : Covers env.inspection a False [] Q' m)
    (hctx : ∀ s : WalkState, (m.after s).ctx =
      (s.binding (Walk.callLocals s env r receiver args) s.errors).ctx)
    (hanswer : env.Regular caps → ∀ s : WalkState, s.Disciplined env caps → Q (m.answer s))
    (hargs : ∀ op ∈ args, op.Faithful (env.types caps)) :
    Disciplines env caps [] (fun _ => []) Q m :=
  silent hc fun hr s hs =>
    ⟨by rw [hctx]; exact isFree_callLocals hr hs r receiver hargs s.errors, hanswer hr s hs⟩

theorem invokeRef (r : MemberRef) (receiver : Option Operand) {args : List Operand} (ty : TypeRef)
    (span : Span) (hargs : ∀ op ∈ args, op.Faithful (env.types caps)) :
    Disciplines env caps [] (fun _ => []) (fun _ => True)
      (Walk.invokeRef env r receiver args ty span) :=
  calling (Covers.invokeRef (a := ⟨[], false, .void⟩) ty span False.elim)
    (Walk.ctx_invokeRef r receiver args ty span) (fun _ _ _ => trivial) hargs

/-- A read through a getter gives something free, unless it may be stack-only. -/
theorem readProperty (r : MemberRef) (receiver : Option Operand) {args : List Operand}
    (ty : TypeRef)
    (span : Span) (hargs : ∀ op ∈ args, op.Faithful (env.types caps)) :
    Disciplines env caps [] (fun _ => [])
      (ScopePair.FreeUnless ((env.types caps).stackOnly ty))
      (Walk.readProperty env r receiver args ty span) :=
  calling (Covers.readProperty (a := ⟨[], false, .void⟩) ty span False.elim)
    (Walk.ctx_readProperty r receiver args ty span)
    (fun hr _ hs => (hs.toExact.disciplined_readProperty hr r receiver args ty span).value) hargs

theorem callMethod (method : MemberRef) (typeArgs : List TypeRef) (receiver : Option Operand)
    {args : List Operand} (ty : TypeRef) (span : Span)
    (hargs : ∀ op ∈ args, op.Faithful (env.types caps)) :
    Disciplines env caps [] (fun _ => []) (fun _ => True)
      (Walk.callMethod env method typeArgs receiver args ty span) :=
  calling (Covers.callMethod (a := ⟨[], false, .void⟩) method typeArgs ty span False.elim)
    (Walk.ctx_callOver method typeArgs receiver args ty span) (fun _ _ _ => trivial) hargs

theorem construct (ctor : Option MemberRef) {args : List Operand} (ty : TypeRef) (span : Span)
    (wellFormed : Bool) (hargs : ∀ op ∈ args, op.Faithful (env.types caps)) :
    Disciplines env caps [] (fun _ => []) (fun _ => True)
      (Walk.construct env ctor args ty span wellFormed) := by
  unfold Walk.construct
  split
  · exact .pure trivial
  · cases ctor with
    | none => exact .pure trivial
    | some ctor => exact invokeRef ctor none ty span hargs

/-- The element of an iteration is free unless it may be stack-only. -/
theorem enterLoop (loop : ForeachStmt) (collection : ScopePair) (span : Span)
    (stackOnlyEnumerator refused : Bool) :
    Disciplines env caps [] (fun _ => [])
      (fun x => x.1.FreeUnless ((env.types caps).stackOnly loop.enumerator.elementTy))
      (Walk.enterLoop env loop collection span stackOnlyEnumerator refused) := by
  unfold Walk.enterLoop
  split
  · exact (report _ _).silent_bind fun _ _ => .pure fun _ _ => rfl
  · refine (stackOnly _).silent_bind fun _ _ => (invokeRef _ _ _ _ (by simp)).silent_bind fun _ _ =>
      (invokeRef _ _ _ _ (by simp)).discard.silent_bind fun _ _ =>
        (readProperty _ _ _ _ (by simp)).silent_bind fun current hcurrent => .pure ?_
    dsimp only
    split
    · exact hcurrent
    · exact hcurrent

/-- An operand is stack-only if its expression is. A variable declared in place is not looked at. -/
theorem operandOf (e : Expr) (mode : RefKind) {check : Walk ScopePair} {Q : ScopePair → Prop}
    (hc : Disciplines env caps (Site.ofExpr a e) tr Q check) :
    Disciplines env caps (Site.ofExpr a e) (fun p => if e.isOutVar then [] else tr p)
      (fun op => op.Faithful (env.types caps)) (Walk.operandOf env e mode check) := by
  have main {ws : List Site} {tr : Spot → List Visit} (fresh : Bool) {w : Walk ScopePair}
      {Q : ScopePair → Prop} (hw : Disciplines env caps ws tr Q w) :
      Disciplines env caps ws tr (fun op => op.Faithful (env.types caps))
        (w >>= fun pair => Walk.stackOnly env e.ty >>= fun stackOnly =>
          Pure.pure (Operand.ofExpr e pair stackOnly mode fresh)) := by
    refine hw.bind_nil fun _ _ => (stackOnly e.ty).silent_bind fun b hb => .pure ?_
    rintro e' he
    obtain rfl : e = e' := Option.some.inj he
    exact hb
  obtain ⟨id, kind, ty, span⟩ := e
  cases kind with
  | outVar name =>
    have hrecord : Disciplines env caps [] (fun _ => []) (fun _ => True)
        (Walk.record id .confined) :=
      ⟨fun _ _ _ hs => ⟨hs.recording _ _, trivial⟩, by simp⟩
    exact ((main true (hrecord.bind_nil fun _ _ => .pure (Q := fun _ => True) trivial)).among
      (List.nil_subset _)).listed fun _ _ => .rfl
  | _ => exact (main false hc).listed fun _ _ => .rfl

/-! ### Scopes of their own -/

/-- The visits of a block are those of its statements. -/
theorem inScope {kind : ScopeKind} {stmts : List Stmt}
    (hd : ws ⊆ env.member.sites → ∀ d ∈ directFunctions stmts, d ∈ env.member.localFunctions)
    {body : Walk Unit} (hb : Disciplines env caps ws tr (fun _ => True) body) :
    Disciplines env caps ws (fun p => tr (p.block kind stmts)) (fun _ => True)
      (Walk.inScope kind (Walk.declareFunctions stmts >>= fun _ => body)) where
  run hr hsub s hs := by
    rw [Walk.after_inScope]
    exact ⟨(hb.run hr hsub _ (hs.inBlock kind (hd hsub))).1.leave, trivial⟩
  visits hr hsub p hp := hb.visits hr hsub _ (hp.inBlock kind (hd hsub))

/-- A scope without local functions. -/
theorem scope {kind : ScopeKind} {body : Walk Unit}
    (hb : Disciplines env caps ws tr (fun _ => True) body) :
    Disciplines env caps ws (fun p => tr (p.block kind [])) (fun _ => True)
      (Walk.inScope kind body) :=
  inScope (fun _ _ hd => absurd hd List.not_mem_nil) hb

/-- A block, given the walk over its statements. -/
theorem block {stmts : List Stmt} {body : Walk Unit}
    (hb : Disciplines env caps (Site.ofStmts a stmts) tr (fun _ => True) body) :
    Disciplines env caps (Site.ofStmts a stmts) (fun p => tr (p.block .block stmts)) (fun _ => True)
      (Walk.block stmts body) :=
  inScope Covers.mem_localFunctions_of_direct hb

/-- Inside of a nested function, once its parameters are bound. -/
theorem nested (kind : ScopeKind) {frame : FunctionFrame} {s : WalkState}
    (hs : s.Disciplined env caps)
    (hthis : ∀ pair ∈ frame.thisPair,
      pair.FreeUnless (decide (env.member.owner.kind = .refStruct)))
    {stmts : List Stmt}
    (hd : ∀ d ∈ directFunctions stmts, d ∈ env.member.localFunctions) {params : Walk Unit}
    (hp : Disciplines env caps [] (fun _ => []) (fun _ => True) params) (hr : env.Regular caps) :
    ((params.after (s.inFunction kind frame)).withFunctions stmts).Disciplined env caps :=
  (hp.run hr (List.nil_subset _) _ (hs.inFunction kind hthis)).1.withFunctions hd

/-- A nested function takes its receiver over, unless it is static. -/
theorem nestedThis {s : WalkState} (hs : s.Disciplined env caps) (isStatic : Bool) :
    ∀ pair ∈ (if isStatic then none else s.thisPair),
      pair.FreeUnless (decide (env.member.owner.kind = .refStruct)) := by
  intro pair hpair
  split at hpair
  · cases hpair
  · exact hs.freeUnless_thisPair hpair

/-- A lambda, given the walk over its statements. -/
theorem lambdaOver (fn : Lambda) {body : Walk Unit}
    (hb : Disciplines env caps (Site.ofStmts a fn.body) tr (fun _ => True) body) :
    Disciplines env caps (Site.ofStmts a fn.body) (fun p => tr (p.lambda env fn)) (fun _ => True)
      (Walk.lambdaOver env fn body) := by
  have hinside (hr : env.Regular caps) (hsub : Site.ofStmts a fn.body ⊆ env.member.sites) (p : Spot)
      (hp : p.state.Disciplined env caps) : (p.lambda env fn).state.Disciplined env caps := by
    refine nested (.lambda fn.isExpressionTree) hp (nestedThis hp fn.isStatic)
      (Covers.mem_localFunctions_of_direct hsub) (bindParams true fn.params fun c hc => ?_) hr
    obtain ⟨q, _, rfl⟩ := List.mem_map.1 hc
    exact ParamContract.freeUnless_pair q _
  refine ⟨fun hr hsub s hs => ?_, fun hr hsub p hp => hb.visits hr hsub _ (hinside hr hsub p hp)⟩
  have hbody := hb.run hr hsub _ (hinside hr hsub ⟨s, none⟩ hs)
  refine ⟨?_, trivial⟩
  rw [show (Walk.lambdaOver env fn body).after s = _ from Walk.after_inFunction ..]
  exact hbody.1.leave

/-- What is done before the body of a local function is looked at. It is walked with the contract of
its own declaration. -/
theorem enterLocalFunction {decl : FnDecl} (hd : decl ∈ env.member.localFunctions) :
    Disciplines env caps [] (fun _ => [])
      (fun c => c = env.member.localContract caps env.program decl)
      (Walk.enterLocalFunction env decl) := by
  let a : Point := ⟨[], false, .void⟩
  have hreport (errors : List EscapeError) :
      Disciplines env caps [] (fun _ => []) (fun _ => True) (Walk.reportAll errors) :=
    quiet (Covers.reportAll (a := a) errors) (.reportAll errors)
  have hfile : Disciplines env caps [] (fun _ => []) (fun _ => True)
      (Walk.fileTypeParams env decl) :=
    quiet (Covers.fileTypeParams (I := env.inspection) (a := a) hd) (.fileTypeParams env decl)
  have hcontract : Disciplines env caps [] (fun _ => [])
      (fun c => c = env.member.localContract caps env.program decl)
      (Walk.localContract env decl) :=
    silent (Covers.localContract (I := env.inspection) (a := a) hd) fun hr _ hs =>
      ⟨hs.locals, hs.toExact.obtain_localContract hr hd⟩
  exact (hreport _).silent_bind fun _ _ => hfile.silent_bind fun _ _ =>
    (hreport _).silent_bind fun _ _ => hcontract

/-- A local function, given the walk over its statements. -/
theorem localFunctionOver {decl : FnDecl}
    (hd : ws ⊆ env.member.sites → decl ∈ env.member.localFunctions)
    (hdirect : ws ⊆ env.member.sites →
      ∀ d ∈ directFunctions (decl.body.getD []), d ∈ env.member.localFunctions)
    {body : Walk Unit} (hb : Disciplines env caps ws tr (fun _ => True) body) :
    Disciplines env caps ws (fun p => tr (p.localFunction env decl)) (fun _ => True)
      (Walk.localFunctionOver env decl body) := by
  have hentered (hr : env.Regular caps) (hsub : ws ⊆ env.member.sites) {s : WalkState}
      (hs : s.Disciplined env caps) :=
    (enterLocalFunction (hd hsub)).run hr (List.nil_subset _) s hs
  have hinside (hr : env.Regular caps) (hsub : ws ⊆ env.member.sites) (p : Spot)
      (hp : p.state.Disciplined env caps) :
      (p.localFunction env decl).state.Disciplined env caps := by
    obtain ⟨ht, hcontract⟩ := hentered hr hsub hp
    let t : WalkState := (Walk.enterLocalFunction env decl).after p.state
    have hscope : WalkState.Disciplined env caps { t with generics := t.localScope env decl } :=
      ⟨⟨ht.placed.localScope (hd hsub), ht.tables⟩, ht.locals, ht.receivers⟩
    refine nested .localFunction hscope (nestedThis ht decl.modifiers.isStatic) (hdirect hsub)
      (bindParams true decl.params fun c hc => ?_) hr
    rw [hcontract] at hc
    obtain ⟨q, _, rfl⟩ := List.mem_map.1 hc
    exact ParamContract.freeUnless_pair q _
  refine ⟨fun hr hsub s hs => ?_, fun hr hsub p hp => hb.visits hr hsub _ (hinside hr hsub p hp)⟩
  have hbody := (hb.run hr hsub _ (hinside hr hsub ⟨s, none⟩ hs)).1.leave
  have hafter : (Walk.localFunctionOver env decl body).after s =
      { (body.after ((⟨s, none⟩ : Spot).localFunction env decl).state).leave with
        generics := ((Walk.enterLocalFunction env decl).after s).generics } :=
    congrArg (fun u : WalkState =>
      { u with generics := ((Walk.enterLocalFunction env decl).after s).generics })
      (Walk.after_inFunction ..)
  refine ⟨?_, trivial⟩
  rw [hafter]
  exact ⟨⟨⟨(hentered hr hsub hs).1.placed.generics, hbody.placed.functions⟩, hbody.tables⟩,
    hbody.locals, hbody.receivers⟩

/-! ### Parts of the walk -/

/-- An expression is a visit of its own, and keeps the discipline if its parts do. -/
theorem expr (id : NodeId) (kind : ExprKind) (ty : TypeRef) (span : Span)
    (hk : Disciplines env caps (Site.ofKind a kind) (Visit.ofKind env id ty span kind)
      (fun _ => True) (Walk.checkForm env id ty span kind)) :
    Disciplines env caps (Site.ofExpr a ⟨id, kind, ty, span⟩)
      (Visit.ofExpr env ⟨id, kind, ty, span⟩)
      (fun _ => True) (Walk.checkExpr env ⟨id, kind, ty, span⟩) where
  run hr hsub s hs := by
    rw [Site.ofExpr] at hsub
    refine ⟨?_, trivial⟩
    cases hrefused : s.refusesValue env ty with
    | true =>
      rw [(run_checkExpr_refused hrefused id kind span).2]
      exact hs.recording _ _
    | false =>
      have h := (hk.run hr (List.cons_subset.1 hsub).2 s hs).1
      rw [(run_checkExpr_form hrefused id kind span).2]
      exact h.recording _ _
  visits hr hsub p hp hreg v hv := by
    rw [Site.ofExpr] at hsub
    rw [Visit.ofExpr] at hreg hv
    have hkind := (List.cons_subset.1 hsub).2
    have hparts (hshown : p.state.refusesValue env ty = false) :
        ∀ w ∈ Visit.ofKind env id ty span kind p, w.Disciplined env (env.types caps) :=
      hk.visits hr hkind p hp fun w hw =>
        hreg w (List.mem_cons_of_mem _ (by rw [hshown]; exact hw))
    rcases List.mem_cons.1 hv with rfl | hv
    · exact Visit.disciplined_of_parts hr hp hkind (hreg _ (List.mem_cons_self ..)) hparts
    · split at hv
      · exact absurd hv List.not_mem_nil
      · next hshown => exact hparts (Bool.eq_false_iff.2 hshown) v hv

/-- What follows a test is only done if the test succeeds. -/
theorem guarded {m : Walk Bool} {w : Walk α} {y : α}
    (hm : Disciplines env caps [] (fun _ => []) (fun _ => True) m)
    (hw : Disciplines env caps ws tr (fun _ => True) w) :
    Disciplines env caps ws (fun p => if m.answer p.state then tr (p.after m) else [])
      (fun _ => True) (m >>= fun ok => if ok = true then w else Pure.pure y) := by
  have hrest (ok : Bool) : Disciplines env caps ws (fun p => if ok = true then tr p else [])
      (fun _ => True) (if ok = true then w else Pure.pure y) :=
    ite hw ((pure trivial).among (List.nil_subset _))
  exact hm.nil_bind fun ok _ => hrest ok

/-- A region comes to its statements. -/
theorem usingOver (region : UsingStmt) (op : Operand) (ty : TypeRef) (span : Span)
    {body : Walk Unit}
    (hb : Disciplines env caps (Site.ofStmts a region.body) tr (fun _ => True) body) :
    Disciplines env caps (Site.ofStmts a region.body)
      (fun p => tr ((p.after (Walk.enterRegion region.isAwait op ty)).block .block region.body))
      (fun _ => True) (Walk.usingOver env region op ty span body) := by
  have henter : Disciplines env caps [] (fun _ => []) (fun _ => True)
      (Walk.enterRegion region.isAwait op ty) :=
    quiet (Covers.enterRegion (I := env.inspection) (a := a) region.isAwait op ty)
      ((Declares.refusesStackOnly _).bind fun _ _ =>
        .ite ((Declares.report _ _).bind fun _ _ => .pure trivial) (.pure trivial))
  have hleave (refused : Bool) : Disciplines env caps [] (fun _ => []) (fun _ => True)
      (Walk.leaveRegion env region op span refused) :=
    quiet (Covers.leaveRegion (a := a) region span refused False.elim)
      (.ite (.pure trivial) (.disposeOf env region.dispose op span))
  rw [Walk.usingOver_eq]
  exact henter.nil_bind fun refused _ => (block hb).bind_nil fun _ _ => hleave refused

/-- An iteration comes to the expressions of its pattern and to its statements. -/
theorem foreachOver (loop : ForeachStmt) (collection : ScopePair) (span : Span)
    {matchElement : ScopePair → Walk Unit} {body : Walk Unit} {tm : ScopePair → Spot → List Visit}
    (hm : ∀ element : ScopePair,
      element.FreeUnless ((env.types caps).stackOnly loop.enumerator.elementTy) →
      Disciplines env caps ws (tm element) (fun _ => True)
        (Walk.bindIteration env loop matchElement element))
    (hb : Disciplines env caps (Site.ofStmts a loop.body) tr (fun _ => True) body) :
    Disciplines env caps (ws ++ Site.ofStmts a loop.body)
      (fun p =>
        let enter := Walk.enterLoop env loop collection span
          ((p.state.types env).stackOnly loop.enumerator.ty) (loop.isAwait || p.state.forbidsLocals)
        let inner := (p.block .block []).after enter
        let element := (enter.answer (p.block .block []).state).1
        tm element inner ++
          tr ((inner.after (Walk.bindIteration env loop matchElement element)).block .block
            loop.body))
      (fun _ => True) (Walk.foreachOver env loop collection span matchElement body) := by
  have hrefuses : Disciplines env caps [] (fun _ => []) (fun _ => True)
      (Walk.refusesStackOnly loop.isAwait) :=
    quiet (Covers.refusesStackOnly (a := a) loop.isAwait) (.refusesStackOnly loop.isAwait)
  have hleave (enumerator : Option Operand) : Disciplines env caps [] (fun _ => []) (fun _ => True)
      (Walk.leaveLoop env loop span enumerator) := by
    refine quiet (Covers.leaveLoop (a := a) loop span False.elim) ?_
    cases enumerator with
    | none => exact .pure trivial
    | some op => exact .disposeOf env loop.enumerator.dispose op span
  rw [Walk.foreachOver_eq]
  exact (stackOnly loop.enumerator.ty).nil_bind fun so _ => hrefuses.nil_bind fun refused _ =>
    scope ((enterLoop loop collection span so refused).nil_bind fun x hx => (hm x.1 hx).bind
      fun _ _ => (block hb).bind_nil fun _ _ => hleave x.2)

/-! ### The walk

The induction is on the tree: each form is put together from the rules above, in the order in which
the walk comes to its parts. -/

mutual

theorem checkExpr {a : Point} : (e : Expr) →
    Disciplines env caps (Site.ofExpr a e) (Visit.ofExpr env e) (fun _ => True)
      (Walk.checkExpr env e)
  | ⟨id, kind, ty, span⟩ => expr id kind ty span (checkForm id ty span kind)

theorem checkForm {a : Point} (id : NodeId) (ty : TypeRef) (span : Span) : (kind : ExprKind) →
    Disciplines env caps (Site.ofKind a kind) (Visit.ofKind env id ty span kind) (fun _ => True)
      (Walk.checkForm env id ty span kind)
  | .literal _ => by
    rw [Site.ofKind, Visit.ofKind, Walk.checkForm]
    exact pure trivial
  | .var name => by
    rw [Site.ofKind, Visit.ofKind, Walk.checkForm]
    exact quiet (Covers.readVariable (a := a) name span) (.readVariable env name span)
  | .thisRef => by
    rw [Site.ofKind, Visit.ofKind, Walk.checkForm]
    exact quiet (Covers.readThis (a := a) span) (.readThis env span)
  | .field receiver owner name => by
    rw [Site.ofKind, Visit.ofKind, Walk.checkForm_field]
    exact (checkOptional receiver).bind_nil fun _ _ =>
      quiet (Covers.readField (a := a) owner name ty False.elim) (.look fun _ => .pure trivial)
  | .property receiver getter args => by
    rw [Site.ofKind, Visit.ofKind, Walk.checkForm]
    exact (checkReceiver receiver).bind fun r _ => (checkArgs args).bind_nil fun ops hops =>
      (readProperty getter r ty span hops).weaken fun _ _ => trivial
  | .call receiver method typeArgs args => by
    rw [Site.ofKind, Visit.ofKind, Walk.checkForm_call]
    exact (checkReceiver receiver).bind fun r _ => (checkArgs args).bind_nil fun ops hops =>
      callMethod method typeArgs r ty span hops
  | .create ctor args => by
    rw [Site.ofKind, Visit.ofKind, Walk.checkForm_create]
    exact (checkShape ty span).nil_bind fun wellFormed _ =>
      (checkArgs args).bind_nil fun ops hops => construct ctor ty span wellFormed hops
  | .stackAlloc _ len => by
    rw [Site.ofKind, Visit.ofKind, Walk.checkForm]
    exact (checkExpr len).discard.bind_nil fun _ _ => (stackOnly ty).bind_nil fun _ _ =>
      pure trivial
  | .conditional cond thenExpr elseExpr byRef => by
    rw [Site.ofKind, Visit.ofKind, Walk.checkForm]
    exact (checkExpr cond).discard.bind fun _ _ => (checkExpr thenExpr).bind fun _ _ =>
      (checkExpr elseExpr).bind_nil fun _ _ => (stackOnly ty).bind_nil fun _ _ => pure trivial
  | .convert operand explicit => by
    rw [Site.ofKind, Visit.ofKind, Walk.checkForm_convert]
    exact (checkExpr operand).bind_nil fun inner _ =>
      quiet (Covers.convertTo (a := a) operand.ty ty span False.elim)
        (.convertTo env operand.ty ty span inner)
  | .binary op left right => by
    rw [Site.ofKind, Visit.ofKind, Walk.checkForm_binary]
    exact (checkExpr left).bind fun _ _ => (checkExpr right).bind_nil fun _ _ =>
      quiet (Covers.compare (a := a) id span op left right False.elim)
        (.ite (.pure trivial) (.look fun _ => (Declares.settle _ _ _).bind fun _ _ =>
          .pure trivial))
  | .test operand pattern => by
    rw [Site.ofKind, Visit.ofKind, Walk.checkForm_test]
    exact (checkExpr operand).bind fun input _ =>
      guarded (quiet (Covers.settleTest (a := a) id span operand.ty pattern)
        (.look fun _ => Declares.settle _ _ _))
        ((checkPattern input operand.ty span pattern).bind_nil fun _ _ => pure trivial)
  | .lambda fn => by
    rw [Site.ofKind, Visit.ofKind, Walk.checkForm]
    exact (checkLambda fn).bind_nil fun _ _ => pure trivial
  | .arrayNew _ elems => by
    rw [Site.ofKind, Visit.ofKind, Walk.checkForm]
    exact (checkShape ty span).nil_bind fun _ _ => (checkAll elems).bind_nil fun _ _ => pure trivial
  | .anonymous members => by
    rw [Site.ofKind, Visit.ofKind, Walk.checkForm]
    exact (checkMembers members).bind_nil fun _ _ => pure trivial
  | .await operand => by
    rw [Site.ofKind, Visit.ofKind, Walk.checkForm]
    exact (checkExpr operand).discard.bind_nil fun _ _ => pure trivial
  | .dynamicInvoke receiver name args => by
    rw [Site.ofKind, Visit.ofKind, Walk.checkForm_dynamicInvoke]
    exact (checkExpr receiver).discard.bind fun _ _ => (checkValues args).bind_nil fun _ _ =>
      quiet (Covers.invokeLate (a := a) _)
        (.look fun _ => (Declares.reportAll _).bind fun _ _ => .pure trivial)
  | .outVar _ => by
    rw [Site.ofKind, Visit.ofKind, Walk.checkForm]
    exact pure trivial

theorem checkOptional {a : Point} : (receiver : Option Expr) →
    Disciplines env caps (Site.ofOptional a receiver) (Visit.ofOptional env receiver)
      (fun _ => True) (Walk.checkOptional env receiver)
  | none => by
    rw [Site.ofOptional, Visit.ofOptional, Walk.checkOptional]
    exact pure trivial
  | some e => by
    rw [Site.ofOptional, Visit.ofOptional, Walk.checkOptional]
    exact (checkExpr e).bind_nil fun _ _ => pure trivial

theorem checkReceiver {a : Point} : (receiver : Option Expr) →
    Disciplines env caps (Site.ofOptional a receiver) (Visit.ofReceiver env receiver)
      (fun _ => True) (Walk.checkReceiver env receiver)
  | none => by
    rw [Site.ofOptional, Visit.ofReceiver, Walk.checkReceiver]
    exact pure trivial
  | some e => by
    rw [Site.ofOptional, Visit.ofReceiver, Walk.checkReceiver]
    exact (operandOf e .none (checkExpr e)).bind_nil fun _ _ => pure trivial

theorem checkArgs {a : Point} : (args : List Arg) →
    Disciplines env caps (Site.ofArgs a args) (Visit.ofArgs env args)
      (fun ops => ∀ op ∈ ops, op.Faithful (env.types caps)) (Walk.checkArgs env args)
  | [] => by
    rw [Site.ofArgs, Visit.ofArgs, Walk.checkArgs]
    exact pure (by simp)
  | ⟨mode, e⟩ :: rest => by
    rw [Site.ofArgs, Visit.ofArgs, Walk.checkArgs]
    exact (operandOf e mode (checkExpr e)).bind fun op hop => (checkArgs rest).bind_nil
      fun ops hops => pure (List.forall_mem_cons.2 ⟨hop, hops⟩)

theorem checkValues {a : Point} : (args : List Arg) →
    Disciplines env caps (Site.ofArgs a args) (Visit.ofValues env args) (fun _ => True)
      (Walk.checkValues env args)
  | [] => by
    rw [Site.ofArgs, Visit.ofValues, Walk.checkValues]
    exact pure trivial
  | ⟨_, e⟩ :: rest => by
    rw [Site.ofArgs, Visit.ofValues, Walk.checkValues]
    exact (checkExpr e).discard.bind fun _ _ => checkValues rest

theorem checkAll {a : Point} : (elems : List Expr) →
    Disciplines env caps (Site.ofExprs a elems) (Visit.ofExprs env elems) (fun _ => True)
      (Walk.checkAll env elems)
  | [] => by
    rw [Site.ofExprs, Visit.ofExprs, Walk.checkAll]
    exact pure trivial
  | e :: rest => by
    rw [Site.ofExprs, Visit.ofExprs, Walk.checkAll]
    exact (checkExpr e).discard.bind fun _ _ => checkAll rest

theorem checkMembers {a : Point} : (members : List NamedExpr) →
    Disciplines env caps (Site.ofMembers a members) (Visit.ofMembers env members) (fun _ => True)
      (Walk.checkMembers env members)
  | [] => by
    rw [Site.ofMembers, Visit.ofMembers, Walk.checkMembers]
    exact pure trivial
  | ⟨name, e⟩ :: rest => by
    rw [Site.ofMembers, Visit.ofMembers, Walk.checkMembers_cons]
    have hnamed (pair : ScopePair) : Disciplines env caps [] (fun _ => []) (fun _ => True)
        (Walk.checkNamed env name e pair) :=
      quiet (Covers.checkNamed (a := a) name e pair)
        ((Declares.stackOnly env e.ty).bind fun _ _ => Declares.passes _ _)
    exact (checkExpr e).bind fun pair _ => (hnamed pair).nil_bind fun _ _ =>
      (checkMembers rest).bind_nil fun _ _ => pure trivial

theorem checkLambda {a : Point} : (fn : Lambda) →
    Disciplines env caps (Site.ofLambda a fn) (Visit.ofLambda env fn) (fun _ => True)
      (Walk.checkLambda env fn)
  | ⟨params, retTy, body, isExpressionTree, isStatic, isAsync⟩ => by
    rw [Site.ofLambda, Visit.ofLambda, Walk.checkLambda]
    exact lambdaOver ⟨params, retTy, body, isExpressionTree, isStatic, isAsync⟩ (checkStmts body)

theorem checkPattern {a : Point} (input : ScopePair) (inputTy : TypeRef) (span : Span) :
    (p : Pattern) →
    Disciplines env caps (Site.ofPattern a inputTy p) (Visit.ofPattern env input inputTy span p)
      (fun _ => True) (Walk.checkPattern env input inputTy span p)
  | .discard => by
    rw [Visit.ofPattern, Walk.checkPattern]
    exact (pure trivial).among (List.nil_subset _)
  | .typeTest _ => by
    rw [Visit.ofPattern, Walk.checkPattern]
    exact (pure trivial).among (List.nil_subset _)
  | .declaration name ty span => by
    rw [Visit.ofPattern, Walk.checkPattern]
    exact (bindPattern name ty input span).among (List.nil_subset _)
  | .constant e => by
    rw [Site.ofPattern, Visit.ofPattern, Walk.checkPattern]
    exact (checkExpr e).discard.among (List.subset_cons_self _ _)
  | .property ty subpatterns => by
    rw [Site.ofPattern, Visit.ofPattern, Walk.checkPattern]
    exact (checkSubPatterns input (ty.getD inputTy) subpatterns).among (List.subset_cons_self _ _)
  | .positional deconstruct subpatterns componentTys => by
    rw [Site.ofPattern, Visit.ofPattern, Walk.checkPattern]
    have htaken : Disciplines env caps [] (fun _ => []) (fun _ => True)
        (Walk.deconstructInput env deconstruct componentTys input inputTy span) :=
      quiet (Covers.deconstructInput (a := a) deconstruct componentTys inputTy span False.elim)
        (.deconstructInput env deconstruct componentTys input inputTy span)
    exact (htaken.nil_bind fun outcome _ => checkComponents outcome span subpatterns
      componentTys).among (List.subset_cons_self _ _)
  | .negated inner => by
    rw [Site.ofPattern, Visit.ofPattern, Walk.checkPattern]
    exact (checkPattern input inputTy span inner).among (List.subset_cons_self _ _)

theorem checkSubPatterns {a : Point} (input : ScopePair) (receiverTy : TypeRef) :
    (subs : List SubPattern) →
    Disciplines env caps (Site.ofSubPatterns a subs) (Visit.ofSubPatterns env input receiverTy subs)
      (fun _ => True) (Walk.checkSubPatterns env input receiverTy subs)
  | [] => by
    rw [Site.ofSubPatterns, Visit.ofSubPatterns, Walk.checkSubPatterns]
    exact pure trivial
  | ⟨access, ty, p, span⟩ :: rest => by
    rw [Site.ofSubPatterns, Visit.ofSubPatterns, Walk.checkSubPatterns]
    have haccess : Disciplines env caps [] (fun _ => []) (fun _ => True)
        (Walk.accessMember env access input receiverTy ty span) :=
      quiet (Covers.accessMember (a := a) access receiverTy ty span False.elim)
        (.accessMember env access input receiverTy ty span)
    exact haccess.nil_bind fun extracted _ => (checkPattern extracted ty span p).bind fun _ _ =>
      checkSubPatterns input receiverTy rest

theorem checkComponents {a : Point} (outcome : Option Outcome) (span : Span) :
    (subs : List Pattern) → (tys : List TypeRef) →
    Disciplines env caps (Site.ofComponents a tys subs)
      (Visit.ofComponents env outcome span subs tys)
      (fun _ => True) (Walk.checkComponents env outcome span subs tys)
  | [], tys => by
    rw [Site.ofComponents, Visit.ofComponents.eq_def, Walk.checkComponents.eq_def]
    exact pure trivial
  | p :: rest, [] => by
    rw [Visit.ofComponents.eq_def, Walk.checkComponents.eq_def]
    exact (pure trivial).among (List.nil_subset _)
  | p :: rest, ty :: tys => by
    rw [Site.ofComponents, Visit.ofComponents, Walk.checkComponents]
    exact (stackOnly ty).nil_bind fun so _ =>
      (checkPattern (Walk.componentPair outcome so) ty span p).bind fun _ _ =>
        checkComponents outcome span rest tys

theorem checkLocal {a : Point} (reportAsync : Bool) : (decl : LocalDecl) →
    Disciplines env caps (Site.ofLocal a decl) (Visit.ofLocal env decl) (fun _ => True)
      (Walk.checkLocal env reportAsync decl)
  | ⟨name, ty, refKind, isScoped, init, span⟩ => by
    rw [Site.ofLocal, Visit.ofLocal, Walk.checkLocal]
    exact (checkShape ty span).nil_bind fun wellFormed _ => (checkInit init).bind_nil fun pair _ =>
      declareLocal ⟨name, ty, refKind, isScoped, init, span⟩ wellFormed reportAsync pair

theorem checkInit {a : Point} : (init : Option Expr) →
    Disciplines env caps (Site.ofOptional a init) (Visit.ofOptional env init) (fun _ => True)
      (Walk.checkInit env init)
  | none => by
    rw [Site.ofOptional, Visit.ofOptional, Walk.checkInit]
    exact pure trivial
  | some e => by
    rw [Site.ofOptional, Visit.ofOptional, Walk.checkInit]
    exact (checkExpr e).bind_nil fun _ _ => pure trivial

theorem checkStmts {a : Point} : (stmts : List Stmt) →
    Disciplines env caps (Site.ofStmts a stmts) (Visit.ofStmts env stmts) (fun _ => True)
      (Walk.checkStmts env stmts)
  | [] => by
    rw [Site.ofStmts, Visit.ofStmts, Walk.checkStmts]
    exact pure trivial
  | s :: rest => by
    rw [Site.ofStmts, Visit.ofStmts, Walk.checkStmts]
    exact (checkStmt s).bind fun _ _ => checkStmts rest

theorem checkStmt {a : Point} : (s : Stmt) →
    Disciplines env caps (Site.ofStmt a s) (Visit.ofStmt env s) (fun _ => True)
      (Walk.checkStmt env s)
  | ⟨_, .expr e, _⟩ => by
    rw [Site.ofStmt, Visit.ofStmt, Walk.checkStmt]
    exact (checkExpr e).discard.among (List.subset_cons_self _ _)
  | ⟨_, .yieldReturn e, _⟩ => by
    rw [Site.ofStmt, Visit.ofStmt, Walk.checkStmt]
    exact (checkExpr e).discard.among (List.subset_cons_self _ _)
  | ⟨_, .declare decl, _⟩ => by
    rw [Site.ofStmt, Visit.ofStmt, Walk.checkStmt]
    exact (checkLocal true decl).among (List.subset_cons_self _ _)
  | ⟨id, .assign ⟨tid, kind, ty, tspan⟩ value byRef, span⟩ => by
    have hassign (t v : ScopePair) : Disciplines env caps [] (fun _ => []) (fun _ => True)
        (Walk.checkAssignment env ⟨tid, kind, ty, tspan⟩ value byRef t v) :=
      quiet (Covers.checkAssignment (a := a) _ value byRef False.elim)
        (.checkAssignment env _ value byRef t v)
    have main := (checkExpr (a := a) ⟨tid, kind, ty, tspan⟩).bind fun t _ =>
      (checkExpr (a := a) value).bind_nil fun v _ => hassign t v
    cases kind
    case property receiver getter args =>
      cases byRef with
      | true => exact main.among (List.subset_cons_self _ _)
      | false =>
        rw [Site.ofStmt, Visit.ofStmt, Walk.checkStmt]
        -- The value is the last argument of the setter.
        exact ((checkReceiver receiver).bind fun r _ => (checkArgs args).bind fun ops hops =>
          (operandOf value .none (checkExpr value)).bind_nil fun op hop =>
            (invokeRef _ r .void span (List.forall_mem_append.2
              ⟨hops, List.forall_mem_singleton.2 hop⟩)).discard).among (List.subset_cons_self _ _)
    all_goals exact main.among (List.subset_cons_self _ _)
  | ⟨_, .ret none, _⟩ => by
    rw [Visit.ofStmt, Walk.checkStmt]
    exact (pure trivial).among (List.nil_subset _)
  | ⟨_, .ret (some value), _⟩ => by
    rw [Site.ofStmt, Visit.ofStmt, Walk.checkStmt]
    exact ((checkExpr value).bind_nil fun pair _ =>
      quiet (Covers.checkReturned (a := a) value False.elim)
        (.checkReturned value pair)).among (List.subset_cons_self _ _)
  | ⟨_, .block body, _⟩ => by
    rw [Site.ofStmt, Visit.ofStmt, Walk.checkStmt]
    exact (block (checkStmts body)).among (List.subset_cons_self _ _)
  | ⟨_, .ifElse cond thenBranch elseBranch, _⟩ => by
    rw [Site.ofStmt, Visit.ofStmt, Walk.checkStmt]
    exact ((checkExpr cond).discard.bind fun _ _ => (block (checkStmts thenBranch)).bind fun _ _ =>
      checkElse elseBranch).among (List.subset_cons_self _ _)
  | ⟨_, .whileLoop cond body, _⟩ => by
    rw [Site.ofStmt, Visit.ofStmt, Walk.checkStmt]
    exact ((checkExpr cond).discard.bind fun _ _ => block (checkStmts body)).among
      (List.subset_cons_self _ _)
  | ⟨id, .foreach loop, span⟩ => by
    rw [Site.ofStmt, Visit.ofStmt, Walk.checkStmt]
    refine given fun hr hsub => ?_
    exact (checkForeach span loop
      (hr.loops _ (hsub (List.mem_cons_self ..)) loop rfl)).among (List.subset_cons_self _ _)
  | ⟨_, .using region, span⟩ => by
    rw [Site.ofStmt, Visit.ofStmt, Walk.checkStmt]
    exact (checkUsing span region).among (List.subset_cons_self _ _)
  | ⟨id, .localFunction decl, span⟩ => by
    rw [Site.ofStmt, Visit.ofStmt, Walk.checkStmt]
    exact checkLocalFunction id span decl

theorem checkElse {a : Point} : (branch : Option (List Stmt)) →
    Disciplines env caps (Site.ofElse a branch) (Visit.ofElse env branch) (fun _ => True)
      (Walk.checkElse env branch)
  | none => by
    rw [Site.ofElse, Visit.ofElse, Walk.checkElse]
    exact pure trivial
  | some body => by
    rw [Site.ofElse, Visit.ofElse, Walk.checkElse]
    exact block (checkStmts body)

theorem checkForeach {a : Point} (span : Span) : (loop : ForeachStmt) →
    loop.IsRegular (env.types caps) →
    Disciplines env caps (Site.ofForeach a loop) (Visit.ofForeach env span loop) (fun _ => True)
      (Walk.checkForeach env span loop)
  | ⟨binding, byRef, collection, enumerator, isAwait, body⟩ => by
    intro hloop
    have hb : Disciplines env caps (Site.ofStmts (a.block body) body) (Visit.ofStmts env body)
        (fun _ => True) (Walk.checkStmts env body) := checkStmts body
    have hm (element : ScopePair) :
        Disciplines env caps (Site.ofPattern a enumerator.elementTy binding)
        (Visit.ofPattern env element enumerator.elementTy span binding) (fun _ => True)
        (Walk.checkPattern env element enumerator.elementTy span binding) :=
      checkPattern element enumerator.elementTy span binding
    have main {ws : List Site} (hbind : ∀ element : ScopePair,
          element.FreeUnless ((env.types caps).stackOnly enumerator.elementTy) →
          Disciplines env caps ws
          (Visit.ofPattern env element enumerator.elementTy span binding) (fun _ => True)
          (Walk.bindIteration env ⟨binding, byRef, collection, enumerator, isAwait, body⟩
            (fun element => Walk.checkPattern env element enumerator.elementTy span binding)
            element)) :
        Disciplines env caps (Site.ofExpr a collection ++ (ws ++ Site.ofStmts (a.block body) body))
          (Visit.ofForeach env span ⟨binding, byRef, collection, enumerator, isAwait, body⟩)
          (fun _ => True)
          (Walk.checkForeach env span ⟨binding, byRef, collection, enumerator, isAwait, body⟩) := by
      rw [Visit.ofForeach, Walk.checkForeach]
      exact (checkExpr collection).bind fun pair _ =>
        foreachOver ⟨binding, byRef, collection, enumerator, isAwait, body⟩ pair span hbind hb
    -- A binding that only declares the loop variable is no pattern.
    cases binding with
    | declaration name ty dspan =>
      refine main fun element helement => ?_
      rw [Visit.ofPattern]
      have hty : (env.types caps).stackOnly ty = (env.types caps).stackOnly enumerator.elementTy :=
        hloop
      exact declareBinding name ty byRef dspan (hty ▸ helement)
    | _ => exact main fun element _ => hm element

theorem checkUsing {a : Point} (span : Span) : (region : UsingStmt) →
    Disciplines env caps (Site.ofUsing a region) (Visit.ofUsing env region) (fun _ => True)
      (Walk.checkUsing env span region)
  | ⟨.expr e, dispose, isAwait, body⟩ => by
    rw [Site.ofUsing, Visit.ofUsing, Walk.checkUsing]
    exact scope ((checkExpr e).bind fun pair _ => (stackOnly e.ty).nil_bind fun so _ =>
      usingOver ⟨.expr e, dispose, isAwait, body⟩ (.ofExpr e pair so .none false) e.ty span
        (checkStmts body))
  | ⟨.declare decl, dispose, isAwait, body⟩ => by
    rw [Site.ofUsing, Visit.ofUsing, Walk.checkUsing]
    have hresource : Disciplines env caps [] (fun _ => []) (fun _ => True)
        (Walk.declaredResource env decl) :=
      quiet (Covers.declaredResource (a := a) decl) (.look fun _ => .pure trivial)
    exact scope ((stackOnly decl.ty).nil_bind fun so _ => (checkLocal (!so) decl).bind fun _ _ =>
      hresource.nil_bind fun op _ =>
        usingOver ⟨.declare decl, dispose, isAwait, body⟩ op decl.ty span (checkStmts body))

theorem checkLocalFunction {a : Point} (id : NodeId) (span : Span) : (decl : FnDecl) →
    Disciplines env caps (⟨a, .stmt ⟨id, .localFunction decl, span⟩⟩ :: Site.ofLocalFunction a decl)
      (Visit.ofLocalFunction env decl) (fun _ => True) (Walk.checkLocalFunction env decl)
  | ⟨fid, name, kind, modifiers, typeParams, params, ret, attrs, explicitImpl, overrides, body,
      fspan⟩ => by
    let decl : FnDecl := ⟨fid, name, kind, modifiers, typeParams, params, ret, attrs, explicitImpl,
      overrides, body, fspan⟩
    have hdirect (hsub : Site.ofLocalFunction a decl ⊆ env.member.sites) :
        ∀ d ∈ directFunctions (decl.body.getD []), d ∈ env.member.localFunctions := by
      rw [Site.ofLocalFunction] at hsub
      cases body with
      | none => exact fun d hd => absurd hd List.not_mem_nil
      | some stmts =>
        rw [Site.ofBody] at hsub
        exact Covers.mem_localFunctions_of_direct hsub
    rw [Visit.ofLocalFunction, Site.ofLocalFunction, Walk.checkLocalFunction]
    refine localFunctionOver (fun hsub => ?_)
      (fun hsub => hdirect (List.cons_subset.1 hsub).2)
      ((checkBody body).among (List.subset_cons_self _ _))
    exact List.mem_filterMap.2 ⟨_, hsub (List.mem_cons_self ..), rfl⟩

theorem checkBody {a : Point} : (body : Option (List Stmt)) →
    Disciplines env caps (Site.ofBody a body) (Visit.ofBody env body) (fun _ => True)
      (Walk.checkBody env body)
  | none => by
    rw [Site.ofBody, Visit.ofBody, Walk.checkBody]
    exact pure trivial
  | some body => by
    rw [Site.ofBody, Visit.ofBody, Walk.checkBody]
    exact checkStmts body

end

end Walk.Disciplines

/-! ## Runs -/

namespace Program

variable {p : Program} {runtime : Bool} {caps : Capabilities} {T : Tables} {m : Member}
  {ms : List Member} {v : Visit} {body : List Stmt}

/-- The walk over the statements of a member starts in a state that keeps the discipline: only its
parameters are in scope, and its receiver. -/
theorem disciplined_bodyEntry (hr : Surroundings.Regular ⟨p, m, runtime⟩ caps) (hT : T.Exact p caps)
    (hbody : m.decl.body = some body) :
    (p.bodyEntry runtime T m body).Disciplined ⟨p, m, runtime⟩ caps := by
  obtain ⟨hcontract, htables⟩ := hT.obtainMember hr.keys hr.mem
  have hown : p.entryContract T m = Contract.ofMember caps p m := hcontract
  have hentry : (p.entry T m).Disciplined ⟨p, m, runtime⟩ caps := by
    refine ⟨⟨placed_entry p runtime T m, htables⟩, fun scope hmem info hinfo => ?_,
      fun f hf pair hpair => ?_⟩
    · obtain rfl := List.mem_singleton.1 hmem
      exact absurd hinfo List.not_mem_nil
    · obtain rfl := List.mem_singleton.1 hf
      obtain ⟨c, hc, rfl⟩ := Option.map_eq_some_iff.1 hpair
      rw [hown] at hc
      obtain ⟨rfl, _⟩ := Contract.receiver_of_build hc
      exact ParamContract.freeUnless_receiver m.owner m.decl
  have hparams (c : ParamContract) (hc : c ∈ (p.entryContract T m).params) :
      c.pair.FreeUnless c.stackOnly := by
    rw [hown] at hc
    obtain ⟨q, _, rfl⟩ := List.mem_map.1 hc
    exact ParamContract.freeUnless_pair q _
  have hbind : Walk.Disciplines ⟨p, m, runtime⟩ caps [] (fun _ => []) (fun _ => True)
      (p.bindMember runtime T m) := .bindParams false m.decl.params hparams
  exact (hbind.run hr (List.nil_subset _) _ hentry).1.withFunctions (direct_of_body hbody)

/-- The visits of the walk over a member keep the discipline if they are regular. -/
theorem disciplined_memberVisits (hr : Surroundings.Regular ⟨p, m, runtime⟩ caps)
    (hT : T.Exact p caps)
    (hreg : ∀ w ∈ p.memberVisits runtime T m,
      w.IsRegular ⟨p, m, runtime⟩ (Surroundings.types ⟨p, m, runtime⟩ caps))
    (hv : v ∈ p.memberVisits runtime T m) :
    v.Disciplined ⟨p, m, runtime⟩ (Surroundings.types ⟨p, m, runtime⟩ caps) := by
  cases hbody : m.decl.body with
  | none =>
    rw [memberVisits, hbody] at hv
    exact absurd hv List.not_mem_nil
  | some body =>
    rw [memberVisits, hbody] at hreg hv
    have hsites : Site.ofStmts (.ofMember m body) body ⊆ m.sites :=
      sites_eq_of_body hbody ▸ List.Subset.refl m.sites
    exact (Walk.Disciplines.checkStmts body).visits hr hsites (p.bodySpot runtime T m body)
      (disciplined_bodyEntry hr hT hbody) hreg v hv

/-- The walk over a member keeps the tables exact. -/
theorem exact_checkMember (hr : Surroundings.Regular ⟨p, m, runtime⟩ caps) (hT : T.Exact p caps) :
    (p.checkMember runtime T m).2.Exact p caps := by
  cases hbody : m.decl.body with
  | none => rwa [checkMember_of_none hbody]
  | some body =>
    rw [checkMember_of_some hbody]
    exact hT.steps hr.keys hr.mem hr.plain (walkMember_tables hr.mem hbody)

/-- So do the visits of walks over some members, one after the other. -/
theorem disciplined_visitsOf (hr : ∀ m ∈ ms, Surroundings.Regular ⟨p, m, runtime⟩ caps)
    (hT : T.Exact p caps)
    (hreg : ∀ x ∈ p.visitsOf runtime T ms,
      x.2.IsRegular ⟨p, x.1, runtime⟩ (Surroundings.types ⟨p, x.1, runtime⟩ caps))
    (hv : (m, v) ∈ p.visitsOf runtime T ms) :
    v.Disciplined ⟨p, m, runtime⟩ (Surroundings.types ⟨p, m, runtime⟩ caps) := by
  induction ms generalizing T with
  | nil => exact absurd hv List.not_mem_nil
  | cons n ms ih =>
    obtain ⟨hn, hms⟩ := List.forall_mem_cons.1 hr
    rw [visitsOf] at hreg hv
    rcases List.mem_append.1 hv with hv | hv
    · obtain ⟨w, hw, heq⟩ := List.mem_map.1 hv
      obtain ⟨rfl, rfl⟩ := Prod.mk.inj heq
      exact disciplined_memberVisits hn hT
        (fun u hu => hreg _ (List.mem_append_left _ (List.mem_map_of_mem hu))) hw
    · exact ih hms (exact_checkMember hn hT) (fun x hx => hreg x (List.mem_append_right _ hx)) hv

/-- **The discipline of pairs.** Suppose that keys are distinct, that local functions have no type
parameters, that whatever names a variable or `this` is stack-only if that is, that variables of
iterations are if the elements are, and that constructors return by value. Then, wherever the walks
over some members come to an expression that is not given up: its value is free, unless it may be
stack-only or declares a variable in place; and if a reference to it leaves the method, then it
denotes storage. So what is returned by reference without an error does. -/
theorem pairs_disciplined (hk : p.DistinctKeys) (hplain : p.PlainLocalFunctions)
    (hms : ms ⊆ p.members) :
    let caps := (p.declaredTables runtime).caps
    let visits := p.visitsOf runtime (p.declaredTables runtime) ms
    (∀ m ∈ ms, Surroundings.RegularLoops ⟨p, m, runtime⟩ caps) →
    (∀ x ∈ visits, x.2.IsRegular ⟨p, x.1, runtime⟩ (Surroundings.types ⟨p, x.1, runtime⟩ caps)) →
    ∀ m v, (m, v) ∈ visits →
      let env : Surroundings := ⟨p, m, runtime⟩
      let types := env.types caps
      let pair := v.pair env
      let storage := v.expr.DenotesStorage types (v.spot.state.target? env)
      pair.isInvalid = false →
        (types.stackOnly v.expr.ty = false → v.expr.isOutVar = false → pair.value = .unlimited) ∧
        (pair.ref ≠ .currentMethod → storage) ∧
        ∀ (facts : Facts) (frame : FunctionFrame), frame.returnsByRef = true →
          Walk.returnError facts frame v.expr pair = none → storage := by
  intro caps visits hloops hreg m v hv env types pair storage hvalid
  have hr (n : Member) (hn : n ∈ ms) : Surroundings.Regular ⟨p, n, runtime⟩ caps :=
    ⟨hms hn, hk, hplain n (hms hn), hloops n hn⟩
  have hdisciplined : v.Disciplined env types := disciplined_visitsOf hr (.empty p _) hreg hv
  refine ⟨fun hstack hout => hdisciplined.value hout hstack hvalid, hdisciplined.ref hvalid,
    fun facts frame hbyRef hnone => hdisciplined.ref hvalid fun href => ?_⟩
  have hwide : Level.returnOnly ≤ pair.ref := (Walk.returnable_of_returnError hvalid hnone).1 hbyRef
  rw [show pair.ref = .currentMethod from href] at hwide
  exact absurd hwide (by decide)

end Program

namespace Slots

/-- The field that `Content` returns a reference to may be referred to outside of it, and is free.
So it denotes storage. -/
theorem pairs_disciplined_content :
    let m : Member := ⟨decl, content⟩
    let env : Surroundings := ⟨program, m, true⟩
    let types := env.types (program.declaredTables true).caps
    program.DistinctKeys ∧ program.PlainLocalFunctions ∧
      ∃ v, (m, v) ∈ program.visitsOf true (program.declaredTables true) program.bodies ∧
        v.expr.id = 5 ∧ (v.pair env).isInvalid = false ∧ (v.pair env).ref = .callingMethod ∧
        (v.pair env).value = .unlimited ∧
        v.expr.DenotesStorage types (v.spot.state.target? env) := by
  intro m env types
  let visits : List (Member × Visit) :=
    program.visitsOf true (program.declaredTables true) program.bodies
  have hk : program.DistinctKeys := by decide +kernel
  have hplain : program.PlainLocalFunctions := by decide +kernel
  have hloops : ∀ n ∈ program.bodies, Surroundings.RegularLoops ⟨program, n, true⟩
      (program.declaredTables true).caps := by decide +kernel
  have hreg : ∀ x ∈ visits, x.2.IsRegular ⟨program, x.1, true⟩
      (Surroundings.types ⟨program, x.1, true⟩ (program.declaredTables true).caps) := by
    decide +kernel
  have hstack : types.stackOnly .int = false := by decide +kernel
  have hlength : 0 < visits.length := by decide +kernel
  let v : Visit := (visits.get ⟨0, hlength⟩).2
  have hv : (m, v) ∈ visits := List.get_mem visits ⟨0, hlength⟩
  have hvalid : (v.pair env).isInvalid = false := rfl
  have href : (v.pair env).ref = .callingMethod := rfl
  obtain ⟨hvalue, hstorage, _⟩ := Program.pairs_disciplined hk hplain
    (List.filter_subset_self _) hloops hreg m v hv hvalid
  exact ⟨hk, hplain, v, hv, rfl, hvalid, href, hvalue hstack rfl,
    hstorage (by rw [href]; decide)⟩

end Slots

end StackEscape
