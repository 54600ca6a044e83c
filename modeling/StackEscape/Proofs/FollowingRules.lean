import StackEscape.Proofs.Following
import StackEscape.Proofs.Rules

/-!
# Steps of two runs

Whatever a walk does without going on over the tree, the second run does alike: its answers follow
those of the first run, and so do the states it ends in.

## Main definitions

* `StackEscape.Walk.Follows` — a walk of the second run follows one of the first run.

## Main results

* `StackEscape.Walk.Follows.pure`, `bind`, `look` — walks are compared part by part.
* `StackEscape.Walk.Follows.resolve`, `invoke`, `readProperty` — calls.
* `StackEscape.Walk.Follows.readVariable`, `declareLocal`, `declareBinding` — variables.
* `StackEscape.Walk.Follows.lambdaOver`, `localFunctionOver`, `foreachOver`, `usingOver` — regions
  around other walks.
-/

set_option autoImplicit false

namespace StackEscape

/-! ## What the second run knows -/

namespace Surroundings.Follows

variable {tight : Bool} {env env' : Surroundings}

theorem ownerName (h : env.Follows tight env') : env'.member.owner.name = env.member.owner.name :=
  (congrArg (fun m : Member => m.owner.name) h.member :)

theorem ownerKind (h : env.Follows tight env') : env'.member.owner.kind = env.member.owner.kind :=
  (congrArg (fun m : Member => m.owner.kind) h.member :)

theorem declKind (h : env.Follows tight env') : env'.member.decl.kind = env.member.decl.kind :=
  (congrArg (fun m : Member => m.decl.kind) h.member :)

theorem owner (h : env.Follows tight env') :
    env'.member.owner.outline tight = env.member.owner.outline tight :=
  (congrArg Member.owner h.member :)

theorem primaryParams (h : env.Follows tight env') :
    env'.member.owner.primaryParams.map (Param.outline tight) =
      env.member.owner.primaryParams.map (Param.outline tight) :=
  (congrArg (fun m : Member => m.owner.primaryParams) h.member :)

/-- Local functions have the same keys. -/
theorem localKey (h : env.Follows tight env') {d d' : FnDecl}
    (hd : d'.outline tight = d.outline tight) : env'.localKey d' = env.localKey d := by
  have hkey : env'.member.key = env.member.key := (congrArg Member.key h.member :)
  have hname : d'.name = d.name := (congrArg FnDecl.name hd :)
  rw [Surroundings.localKey, Surroundings.localKey, hkey, hname]

/-- Type parameters have the same members by their bounds. -/
theorem boundMember? (h : env.Follows tight env') (param name : String) :
    (env'.boundMember? param name).map (Member.outline tight) =
      (env.boundMember? param name).map (Member.outline tight) := by
  have hclause : env'.clause? param = env.clause? param := by
    have hown : env'.member.decl.typeParams = env.member.decl.typeParams :=
      (congrArg (fun m : Member => m.decl.typeParams) h.member :)
    have houter : env'.member.owner.typeParams = env.member.owner.typeParams :=
      (congrArg (fun m : Member => m.owner.typeParams) h.member :)
    rw [Surroundings.clause?, Surroundings.clause?, hown, houter]
  have hmember (r : MemberRef) : (env'.program.member? r).map (Member.outline tight) =
      (env.program.member? r).map (Member.outline tight) := by
    rw [← Program.member?_outline, ← Program.member?_outline, h.program]
  rw [Surroundings.boundMember?, Surroundings.boundMember?, hclause]
  cases env.clause? param with
  | none => rfl
  | some q =>
    simp only [Option.bind_some, List.map_findSome?]
    congr 1
    funext bound
    cases bound <;> simp [hmember]

end Surroundings.Follows

/-- What a reference means, without bodies. -/
def Target.outline (keep : Bool) : Target → Target
  | .localFunction decl => .localFunction (decl.outline keep)
  | .member m => .member (m.outline keep)

/-- The second callee is the same, up to modifiers and its body. -/
structure Callee.Follows (tight : Bool) (a b : Callee) : Prop where
  /-- The contracts have the same outline. -/
  contract : b.contract.outline tight = a.contract.outline tight
  /-- They have the same type parameters. -/
  typeParams : b.decl.typeParams = a.decl.typeParams
  /-- They have the same key. -/
  key : b.key = a.key

namespace WalkState.Follows

variable {tight : Bool} {env env' : Surroundings} {s t : WalkState}

theorem forbidsLocals (h : s.Follows tight t) : t.forbidsLocals = s.forbidsLocals := by
  simp only [WalkState.forbidsLocals, h.ctx.function]

theorem thisPair (h : s.Follows tight t) : t.thisPair = s.thisPair := by
  simp only [WalkState.thisPair, h.ctx.function]

/-- Types mean the same, up to bodies. -/
theorem types (h : s.Follows tight t) (he : env.Follows tight env') :
    (t.types env').outline tight = (s.types env).outline tight := by
  simp only [WalkState.types, TypeEnv.outline, he.program, he.runtime, h.tables.caps, h.generics]

theorem capability (h : s.Follows tight t) (he : env.Follows tight env') :
    (t.types env').capability = (s.types env).capability := by
  rw [← TypeEnv.capability_outline tight, h.types he, TypeEnv.capability_outline]

theorem stackOnly (h : s.Follows tight t) (he : env.Follows tight env') :
    (t.types env').stackOnly = (s.types env).stackOnly :=
  TypeEnv.stackOnly_congr (h.capability he)

theorem typeErrors (h : s.Follows tight t) (he : env.Follows tight env') (span : Span)
    (ty : TypeRef) : (t.types env').typeErrors span ty = (s.types env).typeErrors span ty := by
  rw [← TypeEnv.typeErrors_outline tight, h.types he, TypeEnv.typeErrors_outline]

theorem allTypeErrors (h : s.Follows tight t) (he : env.Follows tight env') (span : Span)
    (tys : List TypeRef) :
    (t.types env').allTypeErrors span tys = (s.types env).allTypeErrors span tys := by
  rw [← TypeEnv.allTypeErrors_outline tight, h.types he, TypeEnv.allTypeErrors_outline]

theorem argErrors (h : s.Follows tight t) (he : env.Follows tight env') :
    (t.types env').argErrors = (s.types env).argErrors := by
  rw [← TypeEnv.argErrors_outline tight, h.types he, TypeEnv.argErrors_outline]

theorem fieldPair (h : s.Follows tight t) (he : env.Follows tight env') :
    (t.types env').fieldPair = (s.types env).fieldPair := by
  rw [← TypeEnv.fieldPair_outline tight, h.types he, TypeEnv.fieldPair_outline]

/-- References mean the same, up to bodies. -/
theorem target? (h : s.Follows tight t) (he : env.Follows tight env') (r : MemberRef) :
    (t.target? env' r).map (Target.outline tight) =
      (s.target? env r).map (Target.outline tight) := by
  have hmember : (env'.program.member? r).map (Member.outline tight) =
      (env.program.member? r).map (Member.outline tight) := by
    rw [← Program.member?_outline, ← Program.member?_outline, he.program]
  have hbound (param : String) := he.boundMember? param r.name
  have houtline : Target.outline tight ∘ Target.member = Target.member ∘ Member.outline tight :=
    rfl
  have hlocal : (if r.owner.declName = some env'.member.owner.name then
        t.ctx.localFunction r.name else none).map (FnDecl.outline tight) =
      (if r.owner.declName = some env.member.owner.name then
        s.ctx.localFunction r.name else none).map (FnDecl.outline tight) := by
    rw [he.ownerName]
    split
    · exact h.ctx.localFunction r.name
    · rfl
  simp only [WalkState.target?]
  revert hlocal
  generalize (if r.owner.declName = some env'.member.owner.name then
    t.ctx.localFunction r.name else none) = x
  generalize (if r.owner.declName = some env.member.owner.name then
    s.ctx.localFunction r.name else none) = y
  intro hlocal
  cases x with
  | some d =>
    obtain ⟨d', rfl, hd⟩ := Option.map_eq_some_iff.1 hlocal.symm
    simp [Target.outline, hd]
  | none =>
    obtain rfl := Option.map_eq_none_iff.1 hlocal.symm
    simp only
    split
    · simp only [Option.map_map, houtline]
      rw [← Option.map_map, ← Option.map_map, hbound]
    · simp only [Option.map_map, houtline]
      rw [← Option.map_map, ← Option.map_map, hmember]

/-- Local functions have the same contracts, up to modifiers. -/
theorem localContract (h : s.Follows tight t) (he : env.Follows tight env') {d d' : FnDecl}
    (hd : d'.outline tight = d.outline tight) :
    (t.localContract env' d').outline tight = (s.localContract env d).outline tight := by
  have htypeParams : d'.typeParams = d.typeParams := (congrArg FnDecl.typeParams hd :)
  simp only [WalkState.localContract, WalkState.localScope, he.localKey hd, htypeParams, h.generics,
    h.tables.caps]
  exact Contract.build_outline_congr _ he.program he.owner hd _ _ _

end WalkState.Follows

/-! ## Walks -/

/-- From a state that follows, the second walk yields a related answer and ends in a state that
follows. -/
def Walk.Follows (tight : Bool) {α : Type} (R : α → α → Prop) (m m' : Walk α) : Prop :=
  ∀ s t : WalkState, s.Follows tight t →
    R (m.answer s) (m'.answer t) ∧ (m.after s).Follows tight (m'.after t)

namespace Walk.Follows

variable {tight : Bool} {α β : Type} {R : α → α → Prop} {Q : β → β → Prop}

theorem pure {x y : α} (h : R x y) : Follows tight R (Pure.pure x) (Pure.pure y) :=
  fun _ _ hst => ⟨h, hst⟩

theorem bind {m m' : Walk α} {f f' : α → Walk β} (hm : Follows tight R m m')
    (hf : ∀ x y, R x y → Follows tight Q (f x) (f' y)) : Follows tight Q (m >>= f) (m' >>= f') :=
  fun s t hst =>
    have h := hm s t hst
    hf _ _ h.1 _ _ h.2

/-- A first step with the same answer. -/
theorem bind_eq {m m' : Walk α} {f f' : α → Walk β} (hm : Follows tight Eq m m')
    (hf : ∀ x, Follows tight Q (f x) (f' x)) : Follows tight Q (m >>= f) (m' >>= f') :=
  hm.bind fun x _ h => h ▸ hf x

/-- A walk may look at the state. -/
theorem look {k k' : WalkState → Walk α}
    (h : ∀ s t : WalkState, s.Follows tight t → Follows tight R (k s) (k' t)) :
    Follows tight R (get >>= k) (get >>= k') :=
  fun s t hst => h s t hst s t hst

/-- A walk whose answer is not used. -/
theorem discard {m m' : Walk α} (hm : Follows tight R m m') :
    Follows tight Eq (Functor.discard m) (Functor.discard m') :=
  fun s t hst => ⟨rfl, (hm s t hst).2⟩

/-- A condition that has the same value. -/
theorem ite {c c' : Prop} [Decidable c] [Decidable c'] {m m' n n' : Walk α} (hc : c' ↔ c)
    (hm : c → Follows tight R m m') (hn : ¬ c → Follows tight R n n') :
    Follows tight R (if c then m else n) (if c' then m' else n') := by
  by_cases h : c
  · rw [if_pos h, if_pos (hc.2 h)]
    exact hm h
  · rw [if_neg h, if_neg fun h' => h (hc.1 h')]
    exact hn h

/-- A change of the state that keeps it following. -/
theorem changing {f f' : WalkState → WalkState}
    (h : ∀ s t : WalkState, s.Follows tight t → (f s).Follows tight (f' t)) :
    Follows tight Eq (modify f : Walk Unit) (modify f') :=
  fun s t hst => ⟨rfl, h s t hst⟩

/-! ## Errors and facts -/

/-- Errors that differ at most in what is a matter of levels. -/
theorem reportAll {errors errors' : List EscapeError}
    (h : withoutViolations errors' = withoutViolations errors) :
    Follows tight Eq (Walk.reportAll errors) (Walk.reportAll errors') := by
  refine changing fun s t hst => ⟨hst.ctx, hst.generics, hst.facts, ?_, hst.tables⟩
  simp only [withoutViolations_append, hst.errors, h]

theorem report (kind : EscapeErrorKind) (span : Span) :
    Follows tight Eq (Walk.report kind span) (Walk.report kind span) := reportAll rfl

theorem passes (kind : Option EscapeErrorKind) (span : Span) :
    Follows tight Eq (Walk.passes kind span) (Walk.passes kind span) := by
  cases kind with
  | none => exact .pure rfl
  | some kind => exact (report kind span).bind_eq fun _ => .pure rfl

/-- Errors that are a matter of levels may come and go. -/
theorem passes_violation {kind kind' : Option EscapeErrorKind} (span : Span)
    (h : ∀ k, kind = some k → k.errorClass = .escapeViolation)
    (h' : ∀ k, kind' = some k → k.errorClass = .escapeViolation) :
    Follows tight Eq (Functor.discard (Walk.passes kind span))
      (Functor.discard (Walk.passes kind' span)) := by
  have hafter (kind : Option EscapeErrorKind)
      (hk : ∀ k, kind = some k → k.errorClass = .escapeViolation) (s : WalkState) :
      ∃ errors, withoutViolations errors = [] ∧
        (Walk.passes kind span).after s = { s with errors := s.errors ++ errors } := by
    cases kind with
    | none => exact ⟨[], rfl, by rw [List.append_nil]; rfl⟩
    | some k =>
      refine ⟨[⟨k, span⟩], withoutViolations_eq_nil fun e he => ?_, rfl⟩
      obtain rfl := List.mem_singleton.1 he
      exact hk k rfl
  intro s t hst
  obtain ⟨es, hes, hs⟩ := hafter kind h s
  obtain ⟨es', hes', ht⟩ := hafter kind' h' t
  refine ⟨rfl, ?_⟩
  change ((Walk.passes kind span).after s).Follows tight ((Walk.passes kind' span).after t)
  rw [hs, ht]
  refine ⟨hst.ctx, hst.generics, hst.facts, ?_, hst.tables⟩
  simp only [withoutViolations_append, hes, hes', hst.errors]

theorem record (id : NodeId) {a b : ScopePair} (h : a.Follows tight b) :
    Follows tight Eq (Walk.record id a) (Walk.record id b) :=
  changing fun _ _ hst => ⟨hst.ctx, hst.generics, hst.facts.record id h, hst.errors, hst.tables⟩

theorem recordNullTest (id : NodeId) (test : NullTest) :
    Follows tight Eq (Walk.recordNullTest id test) (Walk.recordNullTest id test) :=
  changing fun _ _ hst =>
    ⟨hst.ctx, hst.generics, hst.facts.recordNullTest id test, hst.errors, hst.tables⟩

theorem noteCopy (span : Span) :
    Follows tight Eq (Walk.noteCopy span) (Walk.noteCopy span) :=
  changing fun _ _ hst => ⟨hst.ctx, hst.generics, hst.facts.noteCopy span, hst.errors, hst.tables⟩

theorem settle (id : NodeId) (span : Span) (verdict : Verdict) :
    Follows tight Eq (Walk.settle id span verdict) (Walk.settle id span verdict) := by
  cases verdict with
  | plain => exact .pure rfl
  | lowered test => exact (recordNullTest id test).bind_eq fun _ => .pure rfl
  | refused error => exact (report error span).bind_eq fun _ => .pure rfl

/-! ## Scopes -/

theorem modifyContext {f f' : Context → Context}
    (h : ∀ c d : Context, c.Follows tight d → (f c).Follows tight (f' d)) :
    Follows tight Eq (Walk.modifyContext f) (Walk.modifyContext f') :=
  changing fun _ _ hst => ⟨h _ _ hst.ctx, hst.generics, hst.facts, hst.errors, hst.tables⟩

theorem declare {info info' : LocalInfo} (h : info.Follows tight info') :
    Follows tight Eq (Walk.declare info) (Walk.declare info') :=
  modifyContext fun _ _ hc => hc.declare h

/-- The local functions of a block. -/
theorem declareFunctions {stmts stmts' : List Stmt}
    (h : (directFunctions stmts').map (FnDecl.outline tight) =
      (directFunctions stmts).map (FnDecl.outline tight)) :
    Follows tight Eq (Walk.declareFunctions stmts) (Walk.declareFunctions stmts') := by
  intro s t hst
  rw [after_declareFunctions, after_declareFunctions]
  exact ⟨rfl, hst.ctx.declareFunctions h, hst.generics, hst.facts, hst.errors, hst.tables⟩

theorem inScope (kind : ScopeKind) {body body' : Walk Unit} (h : Follows tight Eq body body') :
    Follows tight Eq (Walk.inScope kind body) (Walk.inScope kind body') :=
  (modifyContext fun _ _ hc => hc.pushScope kind).bind_eq fun _ =>
    h.bind_eq fun _ => modifyContext fun _ _ hc => hc.popScope

theorem inFunction (kind : ScopeKind) (frame : FunctionFrame) {body body' : Walk Unit}
    (h : Follows tight Eq body body') :
    Follows tight Eq (Walk.inFunction kind frame body) (Walk.inFunction kind frame body') :=
  (modifyContext fun _ _ hc => hc.pushFunction kind frame).bind_eq fun _ =>
    h.bind_eq fun _ => modifyContext fun _ _ hc => hc.popScope

theorem withGenerics (scope : GenericScope) {body body' : Walk Unit}
    (h : Follows tight Eq body body') :
    Follows tight Eq (Walk.withGenerics scope body) (Walk.withGenerics scope body') := by
  have hset {outer outer' : GenericScope} (ho : outer' = outer) :
      Follows tight Eq (modify fun s : WalkState => { s with generics := outer } : Walk Unit)
        (modify fun s => { s with generics := outer' }) :=
    changing fun _ _ hst => ⟨hst.ctx, ho, hst.facts, hst.errors, hst.tables⟩
  exact look fun s t hst => (hset rfl).bind_eq fun _ => h.bind_eq fun _ => hset hst.generics

theorem block {stmts stmts' : List Stmt} {body body' : Walk Unit}
    (h : (directFunctions stmts').map (FnDecl.outline tight) =
      (directFunctions stmts).map (FnDecl.outline tight))
    (hb : Follows tight Eq body body') :
    Follows tight Eq (Walk.block stmts body) (Walk.block stmts' body') :=
  inScope .block ((declareFunctions h).bind_eq fun _ => hb)

theorem rejectedInAsync (name : String) (ty : TypeRef) (span : Span) :
    Follows tight Eq (Walk.rejectedInAsync name ty span) (Walk.rejectedInAsync name ty span) := by
  refine look fun s t hst => ?_
  rw [hst.forbidsLocals]
  exact ite Iff.rfl (fun _ => (report _ _).bind_eq fun _ => .pure rfl) fun _ => .pure rfl

theorem refusesStackOnly (isAwait : Bool) :
    Follows tight Eq (Walk.refusesStackOnly isAwait) (Walk.refusesStackOnly isAwait) :=
  look fun s t hst => by rw [hst.forbidsLocals]; exact .pure rfl

/-- A return whose value is narrower may fail where the other one does not. -/
theorem checkReturned {value value' : Expr} {a b : ScopePair} (hspan : value'.span = value.span) :
    Follows tight Eq (Walk.checkReturned value a) (Walk.checkReturned value' b) := by
  have hkind (facts : Facts) (frame : FunctionFrame) (value : Expr) (pair : ScopePair)
      (k : EscapeErrorKind) (h : returnError facts frame value pair = some k) :
      k.errorClass = .escapeViolation := by
    unfold returnError at h
    split at h
    · simp at h
    · split at h
      · obtain rfl := Option.some.inj h; rfl
      · split at h
        · obtain rfl := Option.some.inj h; rfl
        · simp at h
  refine look fun s t hst => ?_
  rw [hst.ctx.function, hspan]
  cases s.ctx.function with
  | none => exact .pure rfl
  | some frame =>
    exact passes_violation _ (fun k h => hkind _ _ _ _ k h) fun k h => hkind _ _ _ _ k h

/-- An assignment between narrower sides may fail where the other one does not, and the other way
round. -/
theorem checkAssignment {env env' : Surroundings} {target target' value value' : Expr} (byRef : Bool)
    {t₁ t₂ v₁ v₂ : ScopePair} (hspan : value'.span = value.span) :
    Follows tight Eq (Walk.checkAssignment env target value byRef t₁ v₁)
      (Walk.checkAssignment env' target' value' byRef t₂ v₂) := by
  have hkind (types : TypeEnv) (facts : Facts) (target value : Expr) (t v : ScopePair)
      (k : EscapeErrorKind) (h : assignmentError types facts target value byRef t v = some k) :
      k.errorClass = .escapeViolation := by
    unfold assignmentError at h
    split at h
    · simp at h
    · split at h
      · obtain rfl := Option.some.inj h; rfl
      · split at h
        · obtain rfl := Option.some.inj h; rfl
        · simp at h
  refine look fun s t hst => ?_
  rw [hspan]
  exact passes_violation _ (fun k h => hkind _ _ _ _ _ _ k h) fun k h => hkind _ _ _ _ _ _ k h

/-! ## Types -/

section Types

variable {env env' : Surroundings} (he : env.Follows tight env')

include he

theorem stackOnly (ty : TypeRef) :
    Follows tight Eq (Walk.stackOnly env ty) (Walk.stackOnly env' ty) :=
  look fun s t hst => by rw [hst.stackOnly he]; exact .pure rfl

theorem checkShape (ty : TypeRef) (span : Span) :
    Follows tight Eq (Walk.checkShape env ty span) (Walk.checkShape env' ty span) := by
  refine look fun s t hst => ?_
  rw [hst.typeErrors he]
  exact (reportAll rfl).bind_eq fun _ => .pure rfl

theorem checkTypeArgs {callee callee' : Callee} (h : callee.Follows tight callee')
    (typeArgs : List TypeRef) (span : Span) :
    Follows tight Eq (Walk.checkTypeArgs env callee typeArgs span)
      (Walk.checkTypeArgs env' callee' typeArgs span) := by
  refine look fun s t hst => ?_
  simp only [hst.allTypeErrors he, hst.argErrors he, h.key, h.typeParams]
  exact reportAll rfl

/-! ## Variables -/

theorem declareBinding (name : String) (ty : TypeRef) {a b : ScopePair} (h : a.Follows tight b)
    (isRef : Bool) (span : Span) :
    Follows tight Eq (Walk.declareBinding env name ty a isRef span)
      (Walk.declareBinding env' name ty b isRef span) := by
  have hinfo (stackOnly rejected : Bool) : LocalInfo.Follows tight
      ⟨name, ty, if rejected then .invalid else a, stackOnly, isRef, false, .declared⟩
      ⟨name, ty, if rejected then .invalid else b, stackOnly, isRef, false, .declared⟩ := by
    refine ⟨rfl, rfl, rfl, ?_⟩
    dsimp only
    split
    · exact .refl tight _
    · exact h
  refine (stackOnly he ty).bind_eq fun stackOnly => ite (by rw [h.isInvalid]) (fun _ => ?_)
    fun _ => ?_
  · exact (rejectedInAsync name ty span).bind_eq fun rejected => declare (hinfo _ _)
  · exact declare (hinfo _ false)

/-- A parameter. In a tight comparison it has the same contract. -/
theorem bindParam (checkShapes : Bool) {q q' : Param} {c c' : ParamContract}
    (hq : q'.outline tight = q.outline tight) (hc : c'.outline tight = c.outline tight) :
    Follows tight Eq (Walk.bindParam env checkShapes q c)
      (Walk.bindParam env' checkShapes q' c') := by
  have hname : q'.name = q.name := by
    rw [← Param.outline_name tight, hq, Param.outline_name]
  have hty : q'.ty = q.ty := by rw [← Param.outline_ty tight, hq, Param.outline_ty]
  have hspan : q'.span = q.span := by rw [← Param.outline_span tight, hq, Param.outline_span]
  have hstackOnly : c'.stackOnly = c.stackOnly := by
    have := congrArg ParamContract.stackOnly hc
    cases tight <;> exact this
  have hpair : c.pair.Follows tight c'.pair := by
    cases tight with
    | true => exact (show c' = c from hc) ▸ .refl true _
    | false => exact ⟨rfl, by simp, by simp⟩
  -- Whatever becomes of the parameter, it is declared with its pair.
  have hdeclare {a b : ScopePair} (h : a.Follows tight b) :
      Follows tight Eq
        (Pure.pure a >>= fun pair => Walk.declare
          ⟨q.name, q.ty, pair, c.stackOnly, q.refKind.isByRef, q.isScoped, .param⟩)
        (Pure.pure b >>= fun pair => Walk.declare
          ⟨q.name, q.ty, pair, c.stackOnly, q'.refKind.isByRef, q'.isScoped, .param⟩) :=
    (pure h).bind fun _ _ hpair => declare ⟨rfl, rfl, rfl, hpair⟩
  unfold Walk.bindParam
  rw [hty, hspan, hname, hstackOnly]
  refine ite Iff.rfl (fun _ => (checkShape he _ _).bind_eq fun wellFormed => ?_) fun _ =>
    (pure rfl).bind_eq fun wellFormed => ?_
  all_goals
    refine look fun s t hst => ?_
    rw [hst.ctx.inExpressionTree, hst.forbidsLocals]
    refine ite Iff.rfl (fun _ => ?_) fun _ => ite Iff.rfl (fun _ => ?_) fun _ =>
      ite Iff.rfl (fun _ => ?_) fun _ => ?_
    · exact hdeclare (.refl tight _)
    · exact (report _ _).bind_eq fun _ => hdeclare (.refl tight _)
    · exact (report _ _).bind_eq fun _ => hdeclare (.refl tight _)
    · exact hdeclare hpair

/-- Parameters. -/
theorem bindParams (checkShapes : Bool) {qs qs' : List Param} {cs cs' : List ParamContract}
    (hq : qs'.map (Param.outline tight) = qs.map (Param.outline tight))
    (hc : cs'.map (ParamContract.outline tight) = cs.map (ParamContract.outline tight)) :
    Follows tight Eq (Walk.bindParams env checkShapes qs cs)
      (Walk.bindParams env' checkShapes qs' cs') := by
  unfold Walk.bindParams
  induction qs generalizing qs' cs cs' with
  | nil =>
    obtain rfl := List.map_eq_nil_iff.1 hq
    exact .pure rfl
  | cons q rest ih =>
    obtain ⟨q', rest', rfl, hq, hrest⟩ := List.map_eq_cons_iff.1 hq
    cases cs with
    | nil =>
      obtain rfl := List.map_eq_nil_iff.1 hc
      exact .pure rfl
    | cons c more =>
      obtain ⟨c', more', rfl, hc, hmore⟩ := List.map_eq_cons_iff.1 hc
      exact (bindParam he checkShapes hq hc).bind_eq fun _ => ih hrest hmore

/-- The resource of a region. -/
theorem declaredResource {decl decl' : LocalDecl} (hname : decl'.name = decl.name)
    (hty : decl'.ty = decl.ty) (hspan : decl'.span = decl.span) :
    Follows tight (Operand.Follows tight) (Walk.declaredResource env decl)
      (Walk.declaredResource env' decl') := by
  refine look fun s t hst => pure ?_
  have hfound := hst.ctx.lookup decl.name
  rw [hname, hty, hspan, hst.stackOnly he]
  revert hfound
  generalize s.ctx.lookup decl.name = x
  generalize t.ctx.lookup decl.name = y
  intro hfound
  cases hfound with
  | none => exact .temporary (.refl tight _) ..
  | some h => exact .temporary h.1.pair ..

/-- A local variable. -/
theorem declareLocal {decl decl' : LocalDecl} (wellFormed reportAsync : Bool)
    {init init' : Option ScopePair} (hname : decl'.name = decl.name) (hty : decl'.ty = decl.ty)
    (hspan : decl'.span = decl.span) (hkind : decl'.refKind = decl.refKind)
    (hscoped : tight = true → decl.isScoped = true → decl'.isScoped = true)
    (h : Option.Rel (ScopePair.Follows tight) init init') :
    Follows tight Eq (Walk.declareLocal env decl wellFormed reportAsync init)
      (Walk.declareLocal env' decl' wellFormed reportAsync init') := by
  have hinfo (stackOnly rejected : Bool) : LocalInfo.Follows tight
      ⟨decl.name, decl.ty, if !wellFormed || rejected then .invalid
        else localPair decl stackOnly init, stackOnly, decl.refKind.isByRef, decl.isScoped,
        .declared⟩
      ⟨decl.name, decl.ty, if !wellFormed || rejected then .invalid
        else localPair decl' stackOnly init', stackOnly, decl.refKind.isByRef, decl'.isScoped,
        .declared⟩ := by
    refine ⟨rfl, rfl, rfl, ?_⟩
    dsimp only
    split
    · exact .refl tight _
    · exact localPair_follows stackOnly hkind hscoped h
  unfold Walk.declareLocal
  rw [hname, hty, hspan, hkind]
  refine (stackOnly he decl.ty).bind_eq fun stackOnly => ite Iff.rfl (fun _ => ?_) fun _ => ?_
  · exact (rejectedInAsync _ _ _).bind_eq fun rejected => declare (hinfo _ _)
  · exact (pure rfl).bind_eq fun rejected => declare (hinfo _ _)

/-- A primary constructor parameter. -/
theorem readPrimaryParam {q q' : Param} (hq : q'.outline tight = q.outline tight) (span : Span) :
    Follows tight (ScopePair.Follows tight) (Walk.readPrimaryParam env q span)
      (Walk.readPrimaryParam env' q' span) := by
  have hname : q'.name = q.name := by
    rw [← Param.outline_name tight, hq, Param.outline_name]
  have hty : q'.ty = q.ty := by rw [← Param.outline_ty tight, hq, Param.outline_ty]
  unfold Walk.readPrimaryParam
  rw [hname, hty, he.declKind]
  refine (stackOnly he q.ty).bind_eq fun stackOnly => ite Iff.rfl (fun _ => ?_) fun _ => ?_
  · exact (report _ _).bind_eq fun _ => pure (.refl tight _)
  · refine pure ?_
    cases tight with
    | true =>
      obtain rfl : q' = q := by simpa using hq
      exact .refl true _
    | false => exact ⟨rfl, by simp, by simp⟩

/-- A variable. -/
theorem readVariable (name : String) (span : Span) :
    Follows tight (ScopePair.Follows tight) (Walk.readVariable env name span)
      (Walk.readVariable env' name span) := by
  refine look fun s t hst => ?_
  have hfound := hst.ctx.lookup name
  revert hfound
  generalize s.ctx.lookup name = x
  generalize t.ctx.lookup name = y
  intro hfound
  cases hfound with
  | some h =>
    obtain ⟨hinfo, hcrossed⟩ := h
    dsimp only
    rw [hcrossed, hinfo.stackOnly, hinfo.name, hinfo.ty]
    exact ite Iff.rfl (fun _ => (report _ _).bind_eq fun _ => pure (.refl tight _))
      fun _ => pure hinfo.pair
  | none =>
    have hfind (qs : List Param) : (qs.map (Param.outline tight)).find?
        (fun q => decide (q.name = name)) =
          (qs.find? fun q => decide (q.name = name)).map (Param.outline tight) := by
      rw [List.find?_map]
      simp only [Function.comp_def, Param.outline_name]
    have hparam := congrArg (List.find? fun q : Param => decide (q.name = name)) he.primaryParams
    rw [hfind, hfind] at hparam
    dsimp only
    cases hq : env.member.owner.primaryParams.find? fun q => decide (q.name = name) with
    | some q =>
      rw [hq] at hparam
      obtain ⟨q', hq', houtline⟩ := Option.map_eq_some_iff.1 hparam
      rw [hq']
      exact readPrimaryParam he houtline span
    | none =>
      rw [hq] at hparam
      rw [Option.map_eq_none_iff.1 hparam]
      exact (report _ _).bind_eq fun _ => pure (.refl tight _)

/-- The receiver of the member. -/
theorem readThis (span : Span) :
    Follows tight (ScopePair.Follows tight) (Walk.readThis env span)
      (Walk.readThis env' span) := by
  refine look fun s t hst => ?_
  rw [hst.thisPair, hst.ctx.inNestedFunction, he.ownerKind, he.ownerName]
  cases s.thisPair with
  | none => exact pure (.refl tight _)
  | some pair =>
    exact ite Iff.rfl (fun _ => (report _ _).bind_eq fun _ => pure (.refl tight _))
      fun _ => pure (.refl tight _)

end Types

/-! ## Calls -/

section Calls

variable {env env' : Surroundings} (he : env.Follows tight env')

theorem obtainContract {key key' : String} {build build' : WalkState → Contract}
    (hkey : key' = key) (h : ∀ s t : WalkState, s.Follows tight t →
      (build' t).outline tight = (build s).outline tight) :
    Follows tight (fun c c' => c'.outline tight = c.outline tight) (Walk.obtainContract key build)
      (Walk.obtainContract key' build') := by
  intro s t hst
  subst hkey
  obtain ⟨hc, htables⟩ := hst.tables.obtain key' (h s t hst)
  exact ⟨hc, hst.ctx, hst.generics, hst.facts, hst.errors, htables⟩

/-- What a violation adds to a report is a matter of levels. -/
theorem errorClass_of_mem_add {callee : String} {args : List MixingArg} {operands : List Operand}
    {facts : Facts} {span : Span} {r : MixingReport} (v : Mixing.Violation)
    (hr : ∀ e ∈ r.errors, e.errorClass = .escapeViolation) :
    ∀ e ∈ (r.add callee args operands facts span v).errors, e.errorClass = .escapeViolation := by
  have hsink : ∀ e ∈ sinkError callee args span v.sink, e.errorClass = .escapeViolation := by
    intro e he
    unfold sinkError at he
    split at he
    · rw [List.mem_singleton.1 he]
      rfl
    · exact absurd he List.not_mem_nil
  have hsource : ∀ e ∈ sourceError facts operands v, e.errorClass = .escapeViolation := by
    intro e he
    unfold sourceError at he
    split at he
    · rw [List.mem_singleton.1 he]
      rfl
    · exact absurd he List.not_mem_nil
  intro e he
  rcases List.mem_append.1 he with he | he
  · rcases List.mem_append.1 he with he | he
    · exact hr e he
    · split at he
      · exact absurd he List.not_mem_nil
      · exact hsink e he
  · split at he
    · exact absurd he List.not_mem_nil
    · exact hsource e he

/-- All errors of operands that must not be passed together are a matter of levels. -/
theorem withoutViolations_mixingErrors (facts : Facts) (c : Contract) (receiver : Option Operand)
    (args : List Operand) (span : Span) :
    withoutViolations (mixingErrors facts c receiver args span) = [] := by
  have hall (vs : List Mixing.Violation) (r : MixingReport)
      (hr : ∀ e ∈ r.errors, e.errorClass = .escapeViolation) :
      ∀ e ∈ (vs.foldl (MixingReport.add c.member (c.mixingArgs receiver args)
        (receiver.toList ++ args) facts span) r).errors, e.errorClass = .escapeViolation := by
    induction vs generalizing r with
    | nil => exact hr
    | cons v rest ih => exact ih _ (errorClass_of_mem_add v hr)
  exact withoutViolations_eq_nil (hall _ {} (by simp))

include he

/-- The contract of a local function. -/
theorem localContract {d d' : FnDecl} (hd : d'.outline tight = d.outline tight) :
    Follows tight (fun c c' => c'.outline tight = c.outline tight) (Walk.localContract env d)
      (Walk.localContract env' d') :=
  obtainContract (he.localKey hd) fun _ _ hst => hst.localContract he hd

/-- The contract of a member. -/
theorem memberContract {m m' : Member} (hm : m'.outline tight = m.outline tight) :
    Follows tight (fun c c' => c'.outline tight = c.outline tight) (Walk.memberContract env m)
      (Walk.memberContract env' m') := by
  have hkey : m'.key = m.key := (congrArg Member.key hm :)
  have hscope : m'.innerScope = m.innerScope := (congrArg Member.innerScope hm :)
  refine obtainContract hkey fun s t hst => ?_
  rw [Contract.ofMember, Contract.ofMember, hst.tables.caps, hkey, hscope]
  exact Contract.build_outline_congr _ he.program (congrArg Member.owner hm :)
    (congrArg Member.decl hm :) _ _ _

/-- The callee that a reference means. -/
theorem resolve (r : MemberRef) (span : Span) :
    Follows tight (Option.Rel (Callee.Follows tight)) (Walk.resolve env r span)
      (Walk.resolve env' r span) := by
  refine look fun s t hst => ?_
  have htarget := hst.target? he r
  cases hs : s.target? env r with
  | none =>
    rw [hs] at htarget
    rw [Option.map_eq_none_iff.1 htarget]
    exact (report _ _).bind_eq fun _ => pure .none
  | some target =>
    rw [hs] at htarget
    obtain ⟨target', ht, houtline⟩ := Option.map_eq_some_iff.1 htarget
    rw [ht]
    -- A local function does not follow a member, nor the other way round.
    cases target with
    | localFunction d =>
      cases target' with
      | member m => simp [Target.outline] at houtline
      | localFunction d' =>
        have hd : d'.outline tight = d.outline tight := Target.localFunction.inj houtline
        refine (localContract he hd).bind fun c c' hc => pure (.some ⟨hc, ?_, he.localKey hd⟩)
        exact (congrArg FnDecl.typeParams hd :)
    | member m =>
      cases target' with
      | localFunction d => simp [Target.outline] at houtline
      | member m' =>
        have hm : m'.outline tight = m.outline tight := Target.member.inj houtline
        refine (memberContract he hm).bind fun c c' hc => pure (.some ⟨hc, ?_, ?_⟩)
        · exact (congrArg (fun m : Member => m.decl.typeParams) hm :)
        · exact (congrArg Member.key hm :)

/-- An operand. A variable declared in place has no value to look at. -/
theorem operandOf (σ : Rescoping) (e : Expr) (mode : RefKind) {check check' : Walk ScopePair}
    (h : Follows tight (ScopePair.Follows tight) check check') :
    Follows tight (Operand.Follows tight) (Walk.operandOf env e mode check)
      (Walk.operandOf env' (σ.expr e) mode check') := by
  -- However the pair was found, it belongs to the expression.
  have main {m m' : Walk ScopePair} (hm : Follows tight (ScopePair.Follows tight) m m')
      (fresh : Bool) : Follows tight (Operand.Follows tight)
        (m >>= fun pair => Walk.stackOnly env e.ty >>= fun stackOnly =>
          Pure.pure (Operand.ofExpr e pair stackOnly mode fresh))
        (m' >>= fun pair => Walk.stackOnly env' (σ.expr e).ty >>= fun stackOnly =>
          Pure.pure (Operand.ofExpr (σ.expr e) pair stackOnly mode fresh)) := by
    rw [σ.expr_ty]
    exact hm.bind fun a b hab => (stackOnly he e.ty).bind_eq fun stackOnly =>
      pure (.ofExpr hab σ e stackOnly mode fresh)
  have hrecord : Follows tight (ScopePair.Follows tight)
      (Walk.record e.id .confined >>= fun _ => Pure.pure .confined)
      (Walk.record (σ.expr e).id .confined >>= fun _ => Pure.pure .confined) := by
    rw [σ.expr_id]
    exact (record _ (.refl tight _)).bind_eq fun _ => pure (.refl tight _)
  rcases e with ⟨id, kind, ty, span⟩
  cases kind with
  | outVar name => exact main hrecord true
  | _ => exact main h false

/-- The variable of an `out var` operand. -/
theorem bindOutVar {derived derived' : Level} (isInvalid : Bool)
    (hderived : tight = true → derived' ≤ derived) {op op' : Operand} (h : op.Follows tight op') :
    Follows tight Eq (Walk.bindOutVar env derived isInvalid op)
      (Walk.bindOutVar env' derived' isInvalid op') := by
  have hpair : ScopePair.Follows tight
      (if isInvalid then .invalid
        else if op.stackOnly then ⟨derived, .currentMethod, false⟩ else .temporary)
      (if isInvalid then .invalid
        else if op.stackOnly then ⟨derived', .currentMethod, false⟩ else .temporary) := by
    split
    · exact .refl tight _
    · split
      · exact ⟨rfl, hderived, fun _ => Level.le_refl _⟩
      · exact .refl tight _
  obtain ⟨σ, hexpr⟩ := h.expr
  unfold Walk.bindOutVar
  rw [h.fresh, hexpr, h.stackOnly]
  cases op.fresh with
  | false => exact pure rfl
  | true =>
    cases op.expr with
    | none => exact pure rfl
    | some e =>
      rcases e with ⟨id, kind, ty, span⟩
      cases kind with
      | outVar name => exact declareBinding he name ty hpair false span
      | _ => exact pure rfl

theorem bindOutVars {derived derived' : Level} (isInvalid : Bool)
    (hderived : tight = true → derived' ≤ derived) {args args' : List Operand}
    (h : List.Forall₂ (Operand.Follows tight) args args') :
    Follows tight Eq (Walk.bindOutVars env derived isInvalid args)
      (Walk.bindOutVars env' derived' isInvalid args') := by
  unfold Walk.bindOutVars
  induction h with
  | nil => exact pure rfl
  | cons hop _ ih => exact (bindOutVar he isInvalid hderived hop).bind_eq fun _ => ih

/-- A call. -/
theorem invoke {c c' : Contract} (hc : c'.outline tight = c.outline tight)
    {receiver receiver' : Option Operand} {args args' : List Operand}
    (hr : Option.Rel (Operand.Follows tight) receiver receiver')
    (ha : List.Forall₂ (Operand.Follows tight) args args') (resultTy : TypeRef) (span : Span) :
    Follows tight (Outcome.Follows tight) (Walk.invoke env c receiver args resultTy span)
      (Walk.invoke env' c' receiver' args' resultTy span) := by
  have hinvalid : Outcome.Follows tight .invalid .invalid :=
    ⟨.refl tight _, fun _ => Level.le_refl _⟩
  have hreceiver : List.Forall₂ (Operand.Follows tight) receiver.toList receiver'.toList := by
    cases hr with
    | none => exact .nil
    | some h => exact .cons h .nil
  have hany : (receiver'.toList ++ args').any (fun op => op.pair.isInvalid) =
      (receiver.toList ++ args).any fun op => op.pair.isInvalid :=
    (any_eq_of_forall₂ (List.rel_append hreceiver ha) fun _ _ h => h.pair.isInvalid.symm).symm
  have hderived (ht : tight = true) :
      c'.derivedLevel receiver' args' ≤ c.derivedLevel receiver args := by
    obtain rfl := Contract.eq_of_outline hc ht
    subst ht
    exact c'.derivedLevel_mono hr ha
  unfold Walk.invoke
  rw [Contract.valid_eq hc, hany]
  refine ite Iff.rfl (fun _ => pure hinvalid) fun _ => ite Iff.rfl (fun _ => ?_) fun _ => ?_
  · exact (bindOutVars he true (fun _ => Level.le_refl _) ha).bind_eq fun _ => pure hinvalid
  · refine look fun s t hst => (reportAll ?_).bind_eq fun _ =>
      (stackOnly he resultTy).bind_eq fun stackOnly =>
        (bindOutVars he false hderived ha).bind_eq fun _ => pure ⟨?_, hderived⟩
    · rw [withoutViolations_mixingErrors, withoutViolations_mixingErrors]
    · exact Contract.resultPair_follows hc stackOnly hderived

/-- A call of what a reference means. -/
theorem invokeRef (r : MemberRef) {receiver receiver' : Option Operand} {args args' : List Operand}
    (hr : Option.Rel (Operand.Follows tight) receiver receiver')
    (ha : List.Forall₂ (Operand.Follows tight) args args') (resultTy : TypeRef) (span : Span) :
    Follows tight (ScopePair.Follows tight) (Walk.invokeRef env r receiver args resultTy span)
      (Walk.invokeRef env' r receiver' args' resultTy span) := by
  refine (resolve he r span).bind fun callee callee' hcallee => ?_
  cases hcallee with
  | none => exact pure (.refl tight _)
  | some h => exact (invoke he h.contract hr ha resultTy span).bind fun o o' ho => pure ho.result

/-- A read of a property or indexer, with the copy that it may need. -/
theorem readProperty (getter : MemberRef) {receiver receiver' : Option Operand}
    {args args' : List Operand} (hr : Option.Rel (Operand.Follows tight) receiver receiver')
    (ha : List.Forall₂ (Operand.Follows tight) args args') (resultTy : TypeRef) (span : Span) :
    Follows tight (ScopePair.Follows tight)
      (Walk.readProperty env getter receiver args resultTy span)
      (Walk.readProperty env' getter receiver' args' resultTy span) := by
  refine (resolve he getter span).bind fun callee callee' hcallee => ?_
  cases hcallee with
  | none => exact pure (.refl tight _)
  | @some a b h =>
    have hcopy (stackOnly : Bool) : needsCopy b.contract receiver' stackOnly =
        needsCopy a.contract receiver stackOnly := by
      simp only [needsCopy, Contract.returnsByRef_eq h.contract, Contract.isUnscoped_eq h.contract]
      cases hr with
      | none => rfl
      | some hop => simp only [Option.any_some, hop.stackOnly]
    refine (invoke he h.contract hr ha resultTy span).bind fun o o' ho =>
      (stackOnly he resultTy).bind_eq fun stackOnly => ?_
    refine ite (by rw [ho.result.isInvalid, hcopy]) (fun _ => ?_) fun _ => pure ho.result
    exact (noteCopy span).bind_eq fun _ => pure (ho.result.withValue _)

/-- The disposal of something at the end of a region. -/
theorem disposeOf (dispose : Option MemberRef) {op op' : Operand} (h : op.Follows tight op')
    (span : Span) :
    Follows tight Eq (Walk.disposeOf env dispose op span)
      (Walk.disposeOf env' dispose op' span) := by
  cases dispose with
  | none => exact pure rfl
  | some r => exact inScope .disposal (invokeRef he r (.some h) .nil .void span).discard

/-! ## Patterns -/

/-- The variable of a declaration pattern. -/
theorem bindPattern (name : String) (ty : TypeRef) {a b : ScopePair} (h : a.Follows tight b)
    (span : Span) :
    Follows tight Eq (Walk.bindPattern env name ty a span)
      (Walk.bindPattern env' name ty b span) := by
  refine (checkShape he ty span).bind_eq fun wellFormed => (stackOnly he ty).bind_eq fun stackOnly =>
    declareBinding he name ty ?_ false span
  rw [h.isInvalid]
  split
  · exact .refl tight _
  · split
    · exact h.withRef _
    · exact .refl tight _

/-- A member that a property pattern looks at. -/
theorem accessMember (access : MemberAccess) {a b : ScopePair} (h : a.Follows tight b)
    (receiverTy ty : TypeRef) (span : Span) :
    Follows tight (ScopePair.Follows tight) (Walk.accessMember env access a receiverTy ty span)
      (Walk.accessMember env' access b receiverTy ty span) := by
  refine look fun s t hst => ?_
  cases access with
  | field owner name =>
    dsimp only
    rw [hst.fieldPair he]
    have hreceiver : Option.Rel (fun x y => x.1.Follows tight y.1 ∧ y.2 = x.2)
        (some (a, receiverTy)) (some (b, receiverTy)) := .some ⟨h, rfl⟩
    exact pure ((s.types env).fieldPair_follows hreceiver owner name ty)
  | property getter =>
    dsimp only
    rw [hst.stackOnly he]
    exact readProperty he getter (.some (.temporary h ..)) .nil ty span

/-- The call that takes a value apart. -/
theorem deconstructInput (deconstruct : MemberRef) (componentTys : List TypeRef) {a b : ScopePair}
    (h : a.Follows tight b) (inputTy : TypeRef) (span : Span) :
    Follows tight (Option.Rel (Outcome.Follows tight))
      (Walk.deconstructInput env deconstruct componentTys a inputTy span)
      (Walk.deconstructInput env' deconstruct componentTys b inputTy span) := by
  refine look fun s t hst => ?_
  dsimp only
  rw [hst.stackOnly he]
  refine (resolve he deconstruct span).bind fun callee callee' hcallee => ?_
  cases hcallee with
  | none => exact pure .none
  | some hc =>
    refine ite (by rw [h.isInvalid]) (fun _ => pure .none) fun _ => ?_
    have houts : List.Forall₂ (Operand.Follows tight)
        (componentTys.map fun ty => (⟨none, "component", .confined, (s.types env).stackOnly ty, .out,
          true, span⟩ : Operand))
        (componentTys.map fun ty => (⟨none, "component", .confined, (s.types env).stackOnly ty, .out,
          true, span⟩ : Operand)) :=
      List.forall₂_same.2 fun op hop => by
        obtain ⟨ty, _, rfl⟩ := List.mem_map.1 hop
        exact ⟨⟨.marking fun _ => false, rfl⟩, .refl tight _, rfl, rfl, rfl⟩
    exact (invoke he hc.contract (.some (.temporary h ..)) houts .void span).bind fun o o' ho =>
      pure (.some ho)

/-- The type parameters of a local function. -/
theorem fileTypeParams {d d' : FnDecl} (hd : d'.outline tight = d.outline tight) :
    Follows tight Eq (Walk.fileTypeParams env d) (Walk.fileTypeParams env' d') := by
  have htypeParams : d'.typeParams = d.typeParams := (congrArg FnDecl.typeParams hd :)
  refine changing fun s t hst => ⟨hst.ctx, hst.generics, hst.facts, hst.errors, ?_,
    hst.tables.contracts⟩
  change t.tables.caps.fillOwn env'.program (env'.localKey d') d'.typeParams t.generics =
    s.tables.caps.fillOwn env.program (env.localKey d) d.typeParams s.generics
  rw [← Capabilities.fillOwn_outline tight, he.program, Capabilities.fillOwn_outline,
    hst.tables.caps, hst.generics, he.localKey hd, htypeParams]

/-- The declaration of a local function. -/
theorem checkLocalSignature {d d' : FnDecl} (hd : d'.outline tight = d.outline tight) :
    Follows tight Eq (Walk.checkLocalSignature env d) (Walk.checkLocalSignature env' d') := by
  have hform (env : Surroundings) (d : FnDecl) : Walk.checkLocalSignature env d =
      Walk.reportAll (placementErrors env.member.owner d (env.localKey d) true) >>= fun _ =>
        Walk.fileTypeParams env d >>= fun _ => Walk.reportShapes (cycleErrors d.typeParams ++
          d.typeParams.flatMap (TypeParam.clauseErrors env.runtime)) := rfl
  have htypeParams : d'.typeParams = d.typeParams := (congrArg FnDecl.typeParams hd :)
  have hplaced : placementErrors env'.member.owner d' (env'.localKey d') true =
      placementErrors env.member.owner d (env.localKey d) true := by
    rw [← placementErrors_outline tight, he.owner, hd, he.localKey hd, placementErrors_outline]
  rw [hform, hform, hplaced, htypeParams, he.runtime]
  exact (reportAll rfl).bind_eq fun _ => (fileTypeParams he hd).bind_eq fun _ => reportAll rfl

/-- The variable or the pattern of an iteration. -/
theorem bindIteration (σ : Rescoping) (loop : ForeachStmt) {matchElement matchElement' : ScopePair → Walk Unit}
    (hm : ∀ a b : ScopePair, a.Follows tight b →
      Follows tight Eq (matchElement a) (matchElement' b)) {a b : ScopePair}
    (h : a.Follows tight b) :
    Follows tight Eq (Walk.bindIteration env loop matchElement a)
      (Walk.bindIteration env' (σ.foreachStmt loop) matchElement' b) := by
  rcases loop with ⟨binding, byRef, collection, enumerator, isAwait, stmts⟩
  rw [Rescoping.foreachStmt]
  cases binding with
  | declaration name ty span => exact declareBinding he name ty h byRef span
  | _ => exact hm a b h

end Calls

/-! ## Regions around other walks -/

section Regions

variable {env env' : Surroundings} (he : env.Follows tight env') {σ : Rescoping}
  (hσ : σ.Fits tight) {body body' : Walk Unit}

include he hσ

/-- A lambda. -/
theorem lambdaOver (fn : Lambda) (hb : Follows tight Eq body body') :
    Follows tight Eq (Walk.lambdaOver env fn body)
      (Walk.lambdaOver env' (σ.lambda fn) body') := by
  rcases fn with ⟨qs, retTy, stmts, isExpressionTree, isStatic, isAsync⟩
  rw [Rescoping.lambda]
  refine look fun s t hst => ?_
  have hframe : lambdaFrame t env' ⟨(σ.part 0).params qs, retTy, (σ.part 1).stmts stmts,
      isExpressionTree, isStatic, isAsync⟩ =
      lambdaFrame s env ⟨qs, retTy, stmts, isExpressionTree, isStatic, isAsync⟩ := by
    simp only [lambdaFrame, hst.stackOnly he, hst.thisPair]
  have hqs := Rescoping.outline_params (hσ.part 0) qs
  rw [hframe, hst.stackOnly he]
  refine inFunction _ _ ((bindParams he true hqs ?_).bind_eq fun _ =>
    (declareFunctions (Rescoping.outline_directFunctions (hσ.part 1) stmts)).bind_eq fun _ => hb)
  exact ParamContract.outline_ofParam_congr hqs _

/-- A local function. -/
theorem localFunctionOver (d : FnDecl) (hb : Follows tight Eq body body') :
    Follows tight Eq (Walk.localFunctionOver env d body)
      (Walk.localFunctionOver env' (σ.fn d) body') := by
  have hd := Rescoping.outline_fn hσ d
  have hparams : (σ.fn d).params.map (Param.outline tight) = d.params.map (Param.outline tight) :=
    (congrArg FnDecl.params hd :)
  have htypeParams : (σ.fn d).typeParams = d.typeParams := (congrArg FnDecl.typeParams hd :)
  have hret : (σ.fn d).ret = d.ret := (congrArg FnDecl.ret hd :)
  have hmodifiers : (σ.fn d).modifiers = d.modifiers := (congrArg FnDecl.modifiers hd :)
  have hinner : (directFunctions ((σ.fn d).body.getD [])).map (FnDecl.outline tight) =
      (directFunctions (d.body.getD [])).map (FnDecl.outline tight) := by
    rcases d with ⟨id, name, kind, modifiers, typeParams, params, ret, attrs, explicitImpl,
      overrides, stmts, span⟩
    rw [Rescoping.fn]
    cases stmts with
    | none => rw [Rescoping.branch]
    | some stmts =>
      rw [Rescoping.branch]
      exact Rescoping.outline_directFunctions (hσ.part 1) stmts
  refine (checkLocalSignature he hd).bind_eq fun _ => (localContract he hd).bind fun c c' hc =>
    look fun s t hst => ?_
  have hscope : t.localScope env' (σ.fn d) = s.localScope env d := by
    rw [WalkState.localScope, WalkState.localScope, hst.generics, he.localKey hd, htypeParams]
  have hframe : localFrame t (σ.fn d) c' = localFrame s d c := by
    simp only [localFrame, hret, hmodifiers, hst.thisPair, Contract.returnsStackOnly_eq hc]
  rw [hscope, hframe]
  exact withGenerics _ (inFunction _ _ ((bindParams he true hparams
    (Contract.params_outline hc)).bind_eq fun _ => (declareFunctions hinner).bind_eq fun _ => hb))

/-- A region with a resource. -/
theorem usingOver (region : UsingStmt) {op op' : Operand} (h : op.Follows tight op') (ty : TypeRef)
    (span : Span) (hb : Follows tight Eq body body') :
    Follows tight Eq (Walk.usingOver env region op ty span body)
      (Walk.usingOver env' (σ.usingStmt region) op' ty span body') := by
  rcases region with ⟨resource, dispose, isAwait, stmts⟩
  have hblock := block (Rescoping.outline_directFunctions (hσ.part 1) stmts) hb
  rw [Rescoping.usingStmt]
  refine (refusesStackOnly isAwait).bind_eq fun refused => ?_
  rw [h.stackOnly, h.span]
  exact ite Iff.rfl (fun _ => (report _ _).bind_eq fun _ => hblock) fun _ =>
    hblock.bind_eq fun _ => disposeOf he dispose h span

/-- An iteration. -/
theorem foreachOver (loop : ForeachStmt) {a b : ScopePair} (h : a.Follows tight b) (span : Span)
    {matchElement matchElement' : ScopePair → Walk Unit}
    (hm : ∀ a b : ScopePair, a.Follows tight b →
      Follows tight Eq (matchElement a) (matchElement' b)) (hb : Follows tight Eq body body') :
    Follows tight Eq (Walk.foreachOver env loop a span matchElement body)
      (Walk.foreachOver env' (σ.foreachStmt loop) b span matchElement' body') := by
  have hbind {a b : ScopePair} (h : a.Follows tight b) := bindIteration he σ loop hm h
  revert hbind
  rcases loop with ⟨binding, byRef, collection, enumerator, isAwait, stmts⟩
  have hblock := block (Rescoping.outline_directFunctions (hσ.part 2) stmts) hb
  rw [Rescoping.foreachStmt]
  intro hbind
  refine (stackOnly he _).bind_eq fun so => (refusesStackOnly isAwait).bind_eq fun refused =>
    inScope .block (ite Iff.rfl (fun _ => ?_) fun _ => ?_)
  · rw [Rescoping.expr_span]
    exact (report _ _).bind_eq fun _ => (hbind (.refl tight _)).bind_eq fun _ => hblock
  · rw [Rescoping.expr_ty]
    refine (stackOnly he _).bind_eq fun soc =>
      (invokeRef he _ (.some (.ofExpr h ..)) .nil _ span).bind fun e e' hee => ?_
    have hop := Operand.Follows.temporary (hee.withRef .currentMethod) "enumerator" so span
    refine (invokeRef he _ (.some hop) .nil _ span).discard.bind_eq fun _ =>
      (readProperty he _ (.some hop) .nil _ span).bind fun c c' hcc => ?_
    have hcurrent : ScopePair.Follows tight (if byRef then c else c.withRef .currentMethod)
        (if byRef then c' else c'.withRef .currentMethod) := by
      split
      · exact hcc
      · exact hcc.withRef _
    exact (hbind hcurrent).bind_eq fun _ => hblock.bind_eq fun _ => disposeOf he _ hop span

end Regions

end Walk.Follows

end StackEscape
