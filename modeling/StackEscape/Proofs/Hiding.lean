import StackEscape.Proofs.Hoisting

/-!
# Walks with something hidden

A walk is started from two states that differ in what was reported, in what was recorded for some
expressions and in what was filed for some local functions. If the walk does not come to these local
functions, it cannot tell the states apart: it answers the same, and ends in states that differ in
nothing else.

## Main definitions

* `StackEscape.Context.outlook` — what can be seen of the names in scope.
* `StackEscape.Hiding` — what is hidden in a comparison, and where it takes place.
* `StackEscape.WalkState.Beside` — states that differ only in what is hidden.
* `StackEscape.Walk.Beside`, `Blind` — walks that cannot tell such states apart.

## Main results

* `StackEscape.Walk.Beside.bind`, `look`, `ofProper` — walks are compared part by part.
* `StackEscape.Walk.Beside.resolve`, `invoke`, `readProperty` — calls.
* `StackEscape.Walk.Beside.inBlock`, `lambdaOver`, `localFunctionOver` — walks in scopes of their
  own.

## Implementation notes

Errors are not compared at all: their texts name variables by what was recorded, so two runs may
blame different ones. No answer of a walk depends on them.
-/

set_option autoImplicit false

namespace StackEscape

/-! ## Names in scope -/

/-- What can be seen of a scope. The order in which local functions were declared cannot. -/
def Scope.outlook (s : Scope) : ScopeKind × List LocalInfo × (String → Option FnDecl) :=
  (s.kind, s.locals, s.functions.get?)

namespace Context

/-- What can be seen of the names in scope. -/
def outlook (c : Context) :
    List (ScopeKind × List LocalInfo × (String → Option FnDecl)) × List FunctionFrame :=
  (c.scopes.map Scope.outlook, c.frames)

variable {c d : Context}

theorem frames_congr (h : c.outlook = d.outlook) : c.frames = d.frames := congrArg Prod.snd h

theorem function_congr (h : c.outlook = d.outlook) : c.function = d.function := by
  rw [function, function, frames_congr h]

theorem inNestedFunction_congr (h : c.outlook = d.outlook) :
    c.inNestedFunction = d.inNestedFunction := by
  rw [inNestedFunction, inNestedFunction, frames_congr h]

theorem inExpressionTree_congr (h : c.outlook = d.outlook) :
    c.inExpressionTree = d.inExpressionTree := by
  have hkinds (c : Context) : c.inExpressionTree =
      c.outlook.1.any fun s => decide (s.1 = .lambda true) := by
    simp only [inExpressionTree, outlook, List.any_map]
    rfl
  rw [hkinds, hkinds, h]

theorem localFunction_congr (h : c.outlook = d.outlook) (name : String) :
    c.localFunction name = d.localFunction name := by
  have hfunctions (c : Context) : c.localFunction name =
      c.outlook.1.findSome? fun s => s.2.2 name := by
    simp only [localFunction, outlook, List.findSome?_map]
    rfl
  rw [hfunctions, hfunctions, h]

theorem lookup_congr (h : c.outlook = d.outlook) (name : String) :
    c.lookup name = d.lookup name := by
  -- The search goes over both lists of scopes in step.
  suffices main : ∀ (xs ys : List Scope), xs.map Scope.outlook = ys.map Scope.outlook →
      ∀ crossed, lookupIn name crossed xs = lookupIn name crossed ys from
    main _ _ (congrArg Prod.fst h) none
  intro xs
  induction xs with
  | nil =>
    intro ys h crossed
    rw [List.map_nil] at h
    rw [List.map_eq_nil_iff.1 h.symm]
  | cons x xs ih =>
    intro ys h crossed
    obtain ⟨y, ys, rfl, hxy, hrest⟩ := List.map_eq_cons_iff.1 h.symm
    have hkind : y.kind = x.kind := congrArg Prod.fst hxy
    have hlocals : y.locals = x.locals := congrArg (fun o => o.2.1) hxy
    simp only [lookupIn, lastLocal, hkind, hlocals, ih ys hrest.symm]

theorem outlook_pushScope (h : c.outlook = d.outlook) (kind : ScopeKind) :
    (c.pushScope kind).outlook = (d.pushScope kind).outlook := by
  have hpush (c : Context) : (c.pushScope kind).outlook =
      (Scope.outlook ⟨kind, [], .empty⟩ :: c.outlook.1, c.outlook.2) := rfl
  rw [hpush, hpush, h]

theorem outlook_pushFunction (h : c.outlook = d.outlook) (kind : ScopeKind)
    (frame : FunctionFrame) :
    (c.pushFunction kind frame).outlook = (d.pushFunction kind frame).outlook := by
  have hpush (c : Context) : (c.pushFunction kind frame).outlook =
      (Scope.outlook ⟨kind, [], .empty⟩ :: c.outlook.1, frame :: c.outlook.2) := rfl
  rw [hpush, hpush, h]

theorem outlook_popScope (h : c.outlook = d.outlook) :
    c.popScope.outlook = d.popScope.outlook := by
  have hpop (c : Context) : c.popScope.outlook = match c.outlook.1 with
      | [] => c.outlook
      | s :: rest => (rest, if s.1.isFunction then c.outlook.2.tail else c.outlook.2) := by
    rcases c with ⟨_ | ⟨s, rest⟩, frames⟩ <;> rfl
  rw [hpop, hpop, h]

/-- Changing the innermost scope in a way that can be seen. -/
theorem outlook_modifyTop (h : c.outlook = d.outlook) {f g : Scope → Scope}
    (hfg : ∀ s t : Scope, s.outlook = t.outlook → (f s).outlook = (g t).outlook) :
    (c.modifyTop f).outlook = (d.modifyTop g).outlook := by
  obtain ⟨scopes, frames⟩ := c
  obtain ⟨scopes', frames'⟩ := d
  have hscopes : scopes.map Scope.outlook = scopes'.map Scope.outlook := congrArg Prod.fst h
  obtain rfl : frames = frames' := congrArg Prod.snd h
  cases scopes with
  | nil =>
    obtain rfl : scopes' = [] := List.map_eq_nil_iff.1 hscopes.symm
    rfl
  | cons s rest =>
    obtain ⟨t, rest', rfl, hst, hrest⟩ := List.map_eq_cons_iff.1 hscopes.symm
    simp only [outlook, modifyTop, List.map_cons, hfg s t hst.symm, hrest]

theorem outlook_declare (h : c.outlook = d.outlook) (info : LocalInfo) :
    (c.declare info).outlook = (d.declare info).outlook := by
  refine outlook_modifyTop h fun s t hst => ?_
  obtain ⟨hkind, hrest⟩ := Prod.mk.inj hst
  obtain ⟨hlocals, hfunctions⟩ := Prod.mk.inj hrest
  simp only [Scope.outlook, hkind, hlocals, hfunctions]

/-- Local functions may be declared in another order, as long as names mean the same. -/
theorem outlook_declareFunctions (h : c.outlook = d.outlook) {decls decls' : List FnDecl}
    (hd : ∀ name, (decls.reverse.find? fun f => decide (f.name = name)) =
      decls'.reverse.find? fun f => decide (f.name = name)) :
    (c.declareFunctions decls).outlook = (d.declareFunctions decls').outlook := by
  rw [declareFunctions_eq, declareFunctions_eq]
  refine outlook_modifyTop h fun s t hst => ?_
  obtain ⟨hkind, hrest⟩ := Prod.mk.inj hst
  obtain ⟨hlocals, hfunctions⟩ := Prod.mk.inj hrest
  have htables : (functionTable s.functions decls).get? =
      (functionTable t.functions decls').get? := by
    funext name
    rw [get?_functionTable, get?_functionTable, hd name, hfunctions]
  simp only [Scope.outlook, hkind, hlocals, htables]

end Context

/-! ## What is hidden -/

/-- A comparison of two walks within the body of a member. -/
structure Hiding where
  /-- What surrounds both walks. -/
  env : Surroundings
  /-- The capabilities that the check of declarations filed. -/
  caps : Capabilities
  /-- The local functions that the walks may come to. -/
  functions : List FnDecl
  /-- The keys of local functions of which nothing is compared. -/
  owners : List String
  /-- The expressions of which nothing is compared. -/
  ids : List NodeId

namespace Hiding

/-- The keys under which the walks may file capabilities. -/
def keys (H : Hiding) : List String := H.functions.map H.env.localKey

/-- The comparison makes sense. -/
structure Sound (H : Hiding) : Prop where
  /-- No two declarations share a key. -/
  distinct : H.env.program.DistinctKeys
  /-- The walked member is one of the program. -/
  mem : H.env.member ∈ H.env.program.members
  /-- The check of declarations filed nothing for local functions. -/
  caps : H.caps.OwnedBy (Declarations.IsOwner H.env.program)
  /-- All local functions are steady. -/
  steady : ∀ d ∈ H.env.member.localFunctions, H.env.member.Steady H.caps H.env.program d
  /-- The walks come to local functions of the member. -/
  functions : H.functions ⊆ H.env.member.localFunctions
  /-- Local functions of the member are hidden. -/
  owners : H.owners ⊆ H.env.member.localKeys
  /-- The walks do not come to what is hidden. -/
  disjoint : ∀ k ∈ H.keys, k ∉ H.owners

end Hiding

/-! ## States -/

/-- The state is one within the body, but not within a local function that is hidden. -/
structure WalkState.Stands (H : Hiding) (s : WalkState) : Prop where
  /-- It is one within the body. -/
  placed : s.Placed H.env
  /-- Local functions have their declared contracts. -/
  settled : s.tables.Settled H.env.program H.caps H.env.member
  /-- The type parameters in scope are not hidden. -/
  visible : s.generics.OwnedBy fun k => k ∉ H.owners

/-- The states differ only in what is hidden, and in errors. -/
structure WalkState.Beside (H : Hiding) (s t : WalkState) : Prop where
  /-- The first state. -/
  left : s.Stands H
  /-- The second state. -/
  right : t.Stands H
  /-- The same names can be seen. -/
  ctx : s.ctx.outlook = t.ctx.outlook
  /-- The same type parameters are in scope. -/
  generics : s.generics = t.generics
  /-- The same pairs are recorded. -/
  pairs : ∀ id ∉ H.ids, s.facts.pair? id = t.facts.pair? id
  /-- The same capabilities are filed. -/
  caps : s.tables.caps.Agree (fun k => k ∉ H.owners) t.tables.caps

namespace WalkState

variable {H : Hiding} {s t u : WalkState}

/-- A later state is still one within the body. -/
theorem Stands.later (h : s.Stands H) (hH : H.Sound) (hp : s.Progress H.env t) : t.Stands H where
  placed := hp.placed h.placed
  settled := h.settled.steps H.env hH.distinct hH.mem hH.caps hH.mem hp.tables
  visible := hp.generics ▸ h.visible

namespace Beside

theorem refl (h : s.Stands H) : s.Beside H s := ⟨h, h, rfl, rfl, fun _ _ => rfl, .refl _ _⟩

theorem symm (h : s.Beside H t) : t.Beside H s :=
  ⟨h.right, h.left, h.ctx.symm, h.generics.symm, fun id hid => (h.pairs id hid).symm,
    fun k hk => (h.caps k hk).symm⟩

theorem trans (h : s.Beside H t) (h' : t.Beside H u) : s.Beside H u :=
  ⟨h.left, h'.right, h.ctx.trans h'.ctx, h.generics.trans h'.generics,
    fun id hid => (h.pairs id hid).trans (h'.pairs id hid),
    fun k hk => (h.caps k hk).trans (h'.caps k hk)⟩

/-- Types have the same capabilities. -/
theorem capability_eq (h : s.Beside H t) :
    (s.types H.env).capability = (t.types H.env).capability := by
  funext ty
  have hcaps : s.tables.caps.of H.env.program s.generics =
      t.tables.caps.of H.env.program s.generics := h.caps.of_eq h.left.visible
  simp only [TypeEnv.capability, types, ← h.generics, hcaps]

theorem stackOnly_eq (h : s.Beside H t) :
    (s.types H.env).stackOnly = (t.types H.env).stackOnly :=
  TypeEnv.stackOnly_congr h.capability_eq

theorem fieldPair_eq (h : s.Beside H t) :
    (s.types H.env).fieldPair = (t.types H.env).fieldPair :=
  TypeEnv.fieldPair_congr rfl h.capability_eq

/-- The same types are well formed. -/
theorem typeErrors_eq (h : s.Beside H t) (hH : H.Sound) (span : Span) (ty : TypeRef) :
    (s.types H.env).typeErrors span ty = (t.types H.env).typeErrors span ty := by
  have htypes : ∀ name ∈ H.env.program.typeNames, name ∉ H.owners := by
    intro name hname howner
    have hlocal : name ∈ H.env.program.localKeys :=
      List.mem_flatMap.2 ⟨H.env.member, hH.mem, hH.owners howner⟩
    exact hH.distinct.localKey_not_mem_typeNames hlocal hname
  simp only [types, ← h.generics]
  exact h.caps.typeErrors_eq h.left.visible htypes span ty

theorem forbidsLocals_eq (h : s.Beside H t) : s.forbidsLocals = t.forbidsLocals := by
  simp only [forbidsLocals, Context.function_congr h.ctx]

theorem thisPair_eq (h : s.Beside H t) : s.thisPair = t.thisPair := by
  simp only [thisPair, Context.function_congr h.ctx]

/-- References mean the same. -/
theorem target?_eq (h : s.Beside H t) (r : MemberRef) :
    s.target? H.env r = t.target? H.env r := by
  simp only [target?, Context.localFunction_congr h.ctx]

/-- The local functions of a block are declared in both states. -/
theorem withFunctions (h : s.Beside H t) (hH : H.Sound) {stmts : List Stmt}
    (hd : directFunctions stmts ⊆ H.functions) :
    (s.withFunctions stmts).Beside H (t.withFunctions stmts) :=
  have hmem : ∀ f ∈ directFunctions stmts, f ∈ H.env.member.localFunctions :=
    fun _ hf => hH.functions (hd hf)
  ⟨⟨h.left.placed.declareFunctions hmem, h.left.settled, h.left.visible⟩,
    ⟨h.right.placed.declareFunctions hmem, h.right.settled, h.right.visible⟩,
    Context.outlook_declareFunctions h.ctx fun _ => rfl, h.generics, h.pairs, h.caps⟩

/-- The innermost scope is left in both states. -/
theorem leave (h : s.Beside H t) : s.leave.Beside H t.leave := by
  have hstands {s : WalkState} (hs : s.Stands H) : s.leave.Stands H := by
    refine ⟨⟨hs.placed.generics, fun scope hscope => ?_⟩, hs.settled, hs.visible⟩
    have hscopes : scope ∈ s.ctx.popScope.scopes := hscope
    rw [Context.scopes_popScope] at hscopes
    exact hs.placed.functions scope (List.mem_of_mem_tail hscopes)
  exact ⟨hstands h.left, hstands h.right, Context.outlook_popScope h.ctx, h.generics, h.pairs,
    h.caps⟩

end Beside

end WalkState

/-! ## Walks -/

/-- From states that differ only in what is hidden, the walks answer the same and end in such
states. The first of them files capabilities only for local functions that it may come to. -/
structure Walk.Beside (H : Hiding) {α : Type} (m n : Walk α) : Prop where
  /-- They answer the same. -/
  answer : ∀ s t : WalkState, s.Beside H t → m.answer s = n.answer t
  /-- They end in states that differ only in what is hidden. -/
  after : ∀ s t : WalkState, s.Beside H t → (m.after s).Beside H (n.after t)
  /-- What is filed for others is left alone. -/
  frame : ∀ s t : WalkState, s.Beside H t →
    (m.after s).tables.caps.Agree (fun k => k ∉ H.keys) s.tables.caps

/-- The walk cannot tell states apart that differ only in what is hidden. -/
abbrev Walk.Blind (H : Hiding) {α : Type} (m : Walk α) : Prop := Walk.Beside H m m

namespace Walk.Beside

variable {H : Hiding} {α β : Type}

theorem pure (x : α) : Blind H (Pure.pure x : Walk α) :=
  ⟨fun _ _ _ => rfl, fun _ _ h => h, fun _ _ _ => .refl _ _⟩

theorem bind {m n : Walk α} {f g : α → Walk β} (hm : Beside H m n)
    (hf : ∀ x, Beside H (f x) (g x)) : Beside H (m >>= f) (n >>= g) where
  answer s t h := by
    rw [answer_bind, answer_bind, ← hm.answer s t h]
    exact (hf _).answer _ _ (hm.after s t h)
  after s t h := by
    rw [after_bind, after_bind, ← hm.answer s t h]
    exact (hf _).after _ _ (hm.after s t h)
  frame s t h := by
    intro k hk
    rw [after_bind, (hf _).frame _ _ (hm.after s t h) k hk]
    exact hm.frame s t h k hk

/-- Walks may look at the state. -/
theorem look {k k' : WalkState → Walk α}
    (hk : ∀ s t : WalkState, s.Beside H t → Beside H (k s) (k' t)) :
    Beside H (get >>= k) (get >>= k') :=
  ⟨fun s t h => (hk s t h).answer s t h, fun s t h => (hk s t h).after s t h,
    fun s t h => (hk s t h).frame s t h⟩

theorem discard {m n : Walk α} (hm : Beside H m n) :
    Beside H (Functor.discard m) (Functor.discard n) :=
  ⟨fun _ _ _ => rfl, hm.after, hm.frame⟩

theorem ite {c : Prop} [Decidable c] {m m' n n' : Walk α} (hm : Beside H m m')
    (hn : Beside H n n') : Beside H (if c then m else n) (if c then m' else n') := by
  split
  · exact hm
  · exact hn

theorem forM {f : α → Walk Unit} {l : List α} (h : ∀ x ∈ l, Blind H (f x)) :
    Blind H (l.forM f) := by
  induction l with
  | nil => exact .pure ()
  | cons x rest ih =>
    refine (h x (List.mem_cons_self ..)).bind fun _ => ih fun y hy => ?_
    exact h y (List.mem_cons_of_mem _ hy)

/-- A change of what is not compared. -/
theorem changing {f g : WalkState → WalkState}
    (hleft : ∀ s, (f s).ctx = s.ctx ∧ (f s).generics = s.generics ∧ (f s).tables = s.tables)
    (hright : ∀ s, (g s).ctx = s.ctx ∧ (g s).generics = s.generics ∧ (g s).tables = s.tables)
    (hpairs : ∀ s t, s.Beside H t → ∀ id ∉ H.ids, (f s).facts.pair? id = (g t).facts.pair? id) :
    Beside H (modify f : Walk Unit) (modify g) := by
  have hstands (f : WalkState → WalkState)
      (hf : ∀ s, (f s).ctx = s.ctx ∧ (f s).generics = s.generics ∧ (f s).tables = s.tables)
      {s : WalkState} (h : s.Stands H) : (f s).Stands H := by
    obtain ⟨hctx, hgenerics, htables⟩ := hf s
    refine ⟨⟨?_, ?_⟩, ?_, ?_⟩
    · exact hgenerics ▸ h.placed.generics
    · exact hctx ▸ h.placed.functions
    · exact htables ▸ h.settled
    · exact hgenerics ▸ h.visible
  refine ⟨fun _ _ _ => rfl, fun s t h => ?_, fun s t _ => ?_⟩
  · show (f s).Beside H (g t)
    refine ⟨hstands f hleft h.left, hstands g hright h.right, ?_, ?_, hpairs s t h, ?_⟩
    · rw [(hleft s).1, (hright t).1]
      exact h.ctx
    · rw [(hleft s).2.1, (hright t).2.1]
      exact h.generics
    · rw [(hleft s).2.2, (hright t).2.2]
      exact h.caps
  · show (f s).tables.caps.Agree _ s.tables.caps
    rw [(hleft s).2.2]
    exact .refl _ _

/-- A proper walk that leaves facts alone and does the same to names and capabilities. -/
theorem ofProper (hH : H.Sound) {m : Walk α} (hm : m.Proper H.env)
    (hanswer : ∀ s t : WalkState, s.Beside H t → m.answer s = m.answer t)
    (hctx : ∀ s t : WalkState, s.Beside H t → (m.after s).ctx.outlook = (m.after t).ctx.outlook)
    (hfacts : ∀ s : WalkState, (m.after s).facts = s.facts)
    (hcaps : ∀ s t : WalkState, s.Beside H t →
      (m.after s).tables.caps.Agree (fun k => k ∉ H.owners) (m.after t).tables.caps)
    (hframe : ∀ s : WalkState,
      (m.after s).tables.caps.Agree (fun k => k ∉ H.keys) s.tables.caps) : Blind H m := by
  refine ⟨hanswer, fun s t h => ?_, fun s t _ => hframe s⟩
  have hs := hm.progress s h.left.placed
  have ht := hm.progress t h.right.placed
  refine ⟨h.left.later hH hs, h.right.later hH ht, hctx s t h, ?_, ?_, hcaps s t h⟩
  · rw [hs.generics, ht.generics]
    exact h.generics
  · rw [hfacts, hfacts]
    exact h.pairs

/-! ### Errors and facts -/

/-- Errors are not compared. -/
theorem reportAll (errors errors' : List EscapeError) :
    Beside H (Walk.reportAll errors) (Walk.reportAll errors') :=
  changing (fun _ => ⟨rfl, rfl, rfl⟩) (fun _ => ⟨rfl, rfl, rfl⟩) fun _ _ h => h.pairs

theorem report (kind kind' : EscapeErrorKind) (span : Span) :
    Beside H (Walk.report kind span) (Walk.report kind' span) := reportAll _ _

theorem reportShapes (errors errors' : List TypeError) :
    Beside H (Walk.reportShapes errors) (Walk.reportShapes errors') := reportAll _ _

theorem passes (kind : Option EscapeErrorKind) (span : Span) :
    Blind H (Walk.passes kind span) := by
  cases kind with
  | none => exact .pure true
  | some kind => exact (report kind kind span).bind fun _ => .pure false

/-- The answer of a check is not looked at, so it need not be the same. -/
theorem discard_passes (kind kind' : Option EscapeErrorKind) (span : Span) :
    Beside H (Functor.discard (Walk.passes kind span))
      (Functor.discard (Walk.passes kind' span)) := by
  have hform (kind : Option EscapeErrorKind) : (Functor.discard (Walk.passes kind span) : Walk Unit)
      = Walk.reportAll (kind.toList.map fun k => ⟨k, span⟩) := by
    cases kind with
    | none =>
      funext s
      show ((), s) = ((), { s with errors := s.errors ++ [] })
      rw [List.append_nil]
    | some k => rfl
  rw [hform, hform]
  exact reportAll _ _

theorem record (id : NodeId) (pair : ScopePair) : Blind H (Walk.record id pair) := by
  refine changing (fun _ => ⟨rfl, rfl, rfl⟩) (fun _ => ⟨rfl, rfl, rfl⟩) fun s t h id' hid => ?_
  simp only [Facts.record, Facts.pair?, Table.get?_set]
  split
  · rfl
  · exact h.pairs id' hid

theorem recordNullTest (id : NodeId) (test : NullTest) : Blind H (Walk.recordNullTest id test) :=
  changing (fun _ => ⟨rfl, rfl, rfl⟩) (fun _ => ⟨rfl, rfl, rfl⟩) fun _ _ h => h.pairs

theorem noteCopy (span : Span) : Blind H (Walk.noteCopy span) :=
  changing (fun _ => ⟨rfl, rfl, rfl⟩) (fun _ => ⟨rfl, rfl, rfl⟩) fun _ _ h => h.pairs

theorem settle (id : NodeId) (span : Span) (verdict : Verdict) :
    Blind H (Walk.settle id span verdict) := by
  cases verdict with
  | plain => exact .pure true
  | lowered test => exact (recordNullTest id test).bind fun _ => .pure true
  | refused error => exact (report error error span).bind fun _ => .pure false

/-! ### Contracts and capabilities -/

theorem memberContract (hH : H.Sound) {m : Member} (hm : m ∈ H.env.program.members) :
    Blind H (Walk.memberContract H.env m) := by
  have hanswer {s : WalkState} (h : s.Stands H) : (Walk.memberContract H.env m).answer s =
      Contract.ofMember H.caps H.env.program m :=
    (h.settled.members.obtain_eq hm).trans (h.settled.ofMember_eq hH.distinct hm)
  refine ofProper hH (.memberContract hm) (fun s t h => ?_) (fun s t h => h.ctx) (fun _ => rfl)
    (fun s t h => h.caps) fun s => .refl _ _
  rw [hanswer h.left, hanswer h.right]

/-- Wherever a local function is mentioned first, its contract is the declared one. -/
theorem localContract (hH : H.Sound) {d : FnDecl} (hd : d ∈ H.env.member.localFunctions) :
    Blind H (Walk.localContract H.env d) := by
  have hanswer {s : WalkState} (h : s.Stands H) : (Walk.localContract H.env d).answer s =
      H.env.member.declaredContract H.caps H.env.program d :=
    h.settled.obtainLocal H.env hH.distinct hH.mem hH.caps h.placed.generics hd (hH.steady d hd)
  refine ofProper hH (.localContract hd) (fun s t h => ?_) (fun s t h => h.ctx) (fun _ => rfl)
    (fun s t h => h.caps) fun s => .refl _ _
  rw [hanswer h.left, hanswer h.right]

theorem fileTypeParams (hH : H.Sound) {d : FnDecl} (hd : d ∈ H.functions) :
    Blind H (Walk.fileTypeParams H.env d) := by
  refine ofProper hH (.fileTypeParams (hH.functions hd)) (fun _ _ _ => rfl) (fun s t h => h.ctx)
    (fun _ => rfl) (fun s t h => ?_) fun s k hk => ?_
  · show Capabilities.Agree _
      (s.tables.caps.fillOwn H.env.program (H.env.localKey d) d.typeParams s.generics)
      (t.tables.caps.fillOwn H.env.program (H.env.localKey d) d.typeParams t.generics)
    rw [← h.generics]
    exact h.caps.fillOwn h.left.visible _ _
  · have hne : k.owner ≠ H.env.localKey d := fun he => hk (he ▸ List.mem_map_of_mem hd)
    exact Capabilities.get?_fillOwn_of_ne hne s.tables.caps d.typeParams

/-- The callee of a reference is the same. -/
theorem resolve (hH : H.Sound) (r : MemberRef) (span : Span) :
    Blind H (Walk.resolve H.env r span) := by
  refine look fun s t h => ?_
  rw [h.target?_eq r]
  rcases htarget : t.target? H.env r with _ | d | m
  · exact (report _ _ span).bind fun _ => .pure none
  · have hd := Covers.mem_localFunctions_of_target? h.right.placed htarget
    exact (localContract hH hd).bind fun _ => .pure _
  · have hm := Covers.mem_members_of_target? htarget
    exact (memberContract hH hm).bind fun _ => .pure _

/-! ### Types and names -/

theorem stackOnly (ty : TypeRef) : Blind H (Walk.stackOnly H.env ty) := by
  refine look fun s t h => ?_
  rw [h.stackOnly_eq]
  exact .pure _

theorem checkShape (hH : H.Sound) (ty : TypeRef) (span : Span) :
    Blind H (Walk.checkShape H.env ty span) := by
  refine look fun s t h => ?_
  rw [h.typeErrors_eq hH]
  exact (reportShapes _ _).bind fun _ => .pure _

theorem declare (hH : H.Sound) (info : LocalInfo) : Blind H (Walk.declare info) :=
  ofProper hH (.declare info) (fun _ _ _ => rfl) (fun _ _ h => Context.outlook_declare h.ctx info)
    (fun _ => rfl) (fun _ _ h => h.caps) fun _ => .refl _ _

theorem rejectedInAsync (name : String) (ty : TypeRef) (span : Span) :
    Blind H (Walk.rejectedInAsync name ty span) := by
  refine look fun s t h => ?_
  rw [h.forbidsLocals_eq]
  exact ite ((report _ _ span).bind fun _ => .pure _) (.pure _)

theorem declareBinding (hH : H.Sound) (name : String) (ty : TypeRef) (pair : ScopePair)
    (isRef : Bool) (span : Span) : Blind H (Walk.declareBinding H.env name ty pair isRef span) :=
  (stackOnly ty).bind fun _ => ite
    ((rejectedInAsync name ty span).bind fun _ => declare hH _) (declare hH _)

theorem bindParam (hH : H.Sound) (checkShapes : Bool) (param : Param) (contract : ParamContract) :
    Blind H (Walk.bindParam H.env checkShapes param contract) := by
  unfold Walk.bindParam
  refine ite ((checkShape hH _ _).bind fun _ => ?_) (Beside.bind (.pure true) fun _ => ?_)
  all_goals
    refine look fun s t h => ?_
    rw [Context.inExpressionTree_congr h.ctx, h.forbidsLocals_eq]
    refine ite (declare hH _) (ite ?_ (ite ?_ (declare hH _)))
    · exact (report _ _ _).bind fun _ => declare hH _
    · exact (report _ _ _).bind fun _ => declare hH _

theorem bindParams (hH : H.Sound) (checkShapes : Bool) (params : List Param)
    (contracts : List ParamContract) :
    Blind H (Walk.bindParams H.env checkShapes params contracts) :=
  forM fun x _ => bindParam hH checkShapes x.1 x.2

theorem readPrimaryParam (param : Param) (span : Span) :
    Blind H (Walk.readPrimaryParam H.env param span) :=
  (stackOnly param.ty).bind fun _ => ite ((report _ _ span).bind fun _ => .pure _) (.pure _)

theorem readVariable (name : String) (span : Span) :
    Blind H (Walk.readVariable H.env name span) := by
  refine look fun s t h => ?_
  rw [Context.lookup_congr h.ctx]
  cases t.ctx.lookup name with
  | some found => exact ite ((report _ _ span).bind fun _ => .pure _) (.pure _)
  | none =>
    cases H.env.member.owner.primaryParams.find? fun q => decide (q.name = name) with
    | some param => exact readPrimaryParam param span
    | none => exact (report _ _ span).bind fun _ => .pure _

theorem readThis (span : Span) : Blind H (Walk.readThis H.env span) := by
  refine look fun s t h => ?_
  rw [h.thisPair_eq, Context.inNestedFunction_congr h.ctx]
  cases t.thisPair with
  | none => exact .pure _
  | some pair => exact ite ((report _ _ span).bind fun _ => .pure _) (.pure _)

/-! ### Calls -/

theorem bindOutVar (hH : H.Sound) (derived : Level) (isInvalid : Bool) (op : Operand) :
    Blind H (Walk.bindOutVar H.env derived isInvalid op) := by
  unfold Walk.bindOutVar
  split
  · exact declareBinding hH _ _ _ _ _
  · exact .pure ()

/-- A call. The errors of operands that do not go together may differ. -/
theorem invoke (hH : H.Sound) (c : Contract) (receiver : Option Operand) (args : List Operand)
    (resultTy : TypeRef) (span : Span) :
    Blind H (Walk.invoke H.env c receiver args resultTy span) := by
  have hvars (derived : Level) (isInvalid : Bool) :
      Blind H (Walk.bindOutVars H.env derived isInvalid args) :=
    forM fun op _ => bindOutVar hH derived isInvalid op
  refine ite (.pure _) (ite ((hvars _ _).bind fun _ => .pure _) (look fun s t _ => ?_))
  exact (reportAll _ _).bind fun _ => (stackOnly resultTy).bind fun _ =>
    (hvars _ _).bind fun _ => .pure _

theorem invokeRef (hH : H.Sound) (r : MemberRef) (receiver : Option Operand) (args : List Operand)
    (resultTy : TypeRef) (span : Span) :
    Blind H (Walk.invokeRef H.env r receiver args resultTy span) := by
  refine (resolve hH r span).bind fun callee => ?_
  cases callee with
  | none => exact .pure _
  | some callee =>
    exact (invoke hH callee.contract receiver args resultTy span).bind fun _ => .pure _

theorem readProperty (hH : H.Sound) (getter : MemberRef) (receiver : Option Operand)
    (args : List Operand) (resultTy : TypeRef) (span : Span) :
    Blind H (Walk.readProperty H.env getter receiver args resultTy span) := by
  refine (resolve hH getter span).bind fun callee => ?_
  cases callee with
  | none => exact .pure _
  | some callee =>
    refine (invoke hH callee.contract receiver args resultTy span).bind fun _ =>
      (stackOnly resultTy).bind fun _ => ite ?_ (.pure _)
    exact (noteCopy span).bind fun _ => .pure _

theorem checkTypeArgs (callee : Callee) (typeArgs : List TypeRef) (span : Span) :
    Blind H (Walk.checkTypeArgs H.env callee typeArgs span) :=
  look fun _ _ _ => reportShapes _ _

theorem operandOf (e : Expr) (mode : RefKind) {check : Walk ScopePair} (hc : Blind H check) :
    Blind H (Walk.operandOf H.env e mode check) := by
  obtain ⟨id, kind, ty, span⟩ := e
  have main (fresh : Bool) {m : Walk ScopePair} (hm : Blind H m) :
      Blind H (m >>= fun pair => Walk.stackOnly H.env ty >>= fun stackOnly =>
        Pure.pure (Operand.ofExpr ⟨id, kind, ty, span⟩ pair stackOnly mode fresh)) :=
    hm.bind fun _ => (stackOnly ty).bind fun _ => .pure _
  cases kind with
  | outVar name => exact main true ((record id .confined).bind fun _ => .pure _)
  | _ => exact main false hc

/-! ### Scopes of their own -/

/-- A block, or some other scope that no function begins with. -/
theorem inBlock (hH : H.Sound) (kind : ScopeKind) {stmts : List Stmt}
    (hd : directFunctions stmts ⊆ H.functions) {body : Walk Unit} (hb : Blind H body) :
    Blind H (Walk.inScope kind (Walk.declareFunctions stmts >>= fun _ => body)) := by
  have henter {s t : WalkState} (h : s.Beside H t) :
      (s.inBlock kind stmts).Beside H (t.inBlock kind stmts) := by
    have hstands {s : WalkState} (hs : s.Stands H) : (s.inBlock kind stmts).Stands H :=
      ⟨(hs.placed.pushScope kind s.ctx.frames).declareFunctions fun _ hf => hH.functions (hd hf),
        hs.settled, hs.visible⟩
    refine ⟨hstands h.left, hstands h.right, ?_, h.generics, h.pairs, h.caps⟩
    exact Context.outlook_declareFunctions (Context.outlook_pushScope h.ctx kind) fun _ => rfl
  refine ⟨fun _ _ _ => rfl, fun s t h => ?_, fun s t h => ?_⟩
  · rw [after_inScope, after_inScope]
    exact (hb.after _ _ (henter h)).leave
  · rw [after_inScope]
    exact hb.frame _ _ (henter h)

/-- A scope without local functions of its own. -/
theorem inScope (hH : H.Sound) (kind : ScopeKind) {body : Walk Unit} (hb : Blind H body) :
    Blind H (Walk.inScope kind body) := by
  show Blind H (Walk.inScope kind (Walk.declareFunctions [] >>= fun _ => body))
  exact inBlock hH kind (List.nil_subset _) hb

/-- A nested function, given the walk over its parameters and the one over its body. -/
theorem inFunction (hH : H.Sound) (kind : ScopeKind) (frame : FunctionFrame) {stmts : List Stmt}
    (hd : directFunctions stmts ⊆ H.functions) {params body : Walk Unit} (hp : Blind H params)
    (hb : Blind H body) :
    Blind H (Walk.inFunction kind frame
      (params >>= fun _ => Walk.declareFunctions stmts >>= fun _ => body)) := by
  have henter {s t : WalkState} (h : s.Beside H t) :
      (s.inFunction kind frame).Beside H (t.inFunction kind frame) := by
    have hstands {s : WalkState} (hs : s.Stands H) : (s.inFunction kind frame).Stands H :=
      ⟨hs.placed.pushScope kind (frame :: s.ctx.frames), hs.settled, hs.visible⟩
    exact ⟨hstands h.left, hstands h.right, Context.outlook_pushFunction h.ctx kind frame,
      h.generics, h.pairs, h.caps⟩
  have hinside {s t : WalkState} (h : s.Beside H t) :
      ((params.after (s.inFunction kind frame)).withFunctions stmts).Beside H
        ((params.after (t.inFunction kind frame)).withFunctions stmts) :=
    (hp.after _ _ (henter h)).withFunctions hH hd
  refine ⟨fun _ _ _ => rfl, fun s t h => ?_, fun s t h => ?_⟩
  · rw [after_inFunction, after_inFunction]
    exact (hb.after _ _ (hinside h)).leave
  · intro k hk
    rw [after_inFunction]
    exact (hb.frame _ _ (hinside h) k hk).trans (hp.frame _ _ (henter h) k hk)

/-- Other type parameters are in scope inside. -/
theorem withGenerics {g : GenericScope} (hg : H.env.Inside g)
    (hv : g.OwnedBy fun k => k ∉ H.owners) {body : Walk Unit} (hb : Blind H body) :
    Blind H (Walk.withGenerics g body) := by
  have henter {s t : WalkState} (h : s.Beside H t) :
      WalkState.Beside H { s with generics := g } { t with generics := g } :=
    ⟨⟨⟨hg, h.left.placed.functions⟩, h.left.settled, hv⟩,
      ⟨⟨hg, h.right.placed.functions⟩, h.right.settled, hv⟩, h.ctx, rfl, h.pairs, h.caps⟩
  refine ⟨fun _ _ _ => rfl, fun s t h => ?_, fun s t h => hb.frame _ _ (henter h)⟩
  have hinside := hb.after _ _ (henter h)
  exact ⟨⟨⟨h.left.placed.generics, hinside.left.placed.functions⟩, hinside.left.settled,
      h.left.visible⟩,
    ⟨⟨h.right.placed.generics, hinside.right.placed.functions⟩, hinside.right.settled,
      h.right.visible⟩, hinside.ctx, h.generics, hinside.pairs, hinside.caps⟩

theorem block (hH : H.Sound) {stmts : List Stmt} (hd : directFunctions stmts ⊆ H.functions)
    {body : Walk Unit} (hb : Blind H body) : Blind H (Walk.block stmts body) :=
  inBlock hH .block hd hb

theorem lambdaOver (hH : H.Sound) (fn : Lambda) (hd : directFunctions fn.body ⊆ H.functions)
    {body : Walk Unit} (hb : Blind H body) : Blind H (Walk.lambdaOver H.env fn body) := by
  refine look fun s t h => ?_
  have hframe : Walk.lambdaFrame s H.env fn = Walk.lambdaFrame t H.env fn := by
    simp only [Walk.lambdaFrame, h.stackOnly_eq, h.thisPair_eq]
  rw [hframe, h.stackOnly_eq]
  exact inFunction hH _ _ hd (bindParams hH true fn.params _) hb

theorem enterLocalFunction (hH : H.Sound) {decl : FnDecl} (hd : decl ∈ H.functions) :
    Blind H (Walk.enterLocalFunction H.env decl) :=
  (reportAll _ _).bind fun _ => (fileTypeParams hH hd).bind fun _ =>
    (reportShapes _ _).bind fun _ => localContract hH (hH.functions hd)

theorem localFunctionOver (hH : H.Sound) {decl : FnDecl} (hdecl : decl ∈ H.functions)
    (hd : directFunctions (decl.body.getD []) ⊆ H.functions) {body : Walk Unit}
    (hb : Blind H body) : Blind H (Walk.localFunctionOver H.env decl body) := by
  have hkey : H.env.localKey decl ∉ H.owners := hH.disjoint _ (List.mem_map_of_mem hdecl)
  rw [Walk.localFunctionOver_eq]
  refine (enterLocalFunction hH hdecl).bind fun contract => look fun s t h => ?_
  have hscope : s.localScope H.env decl = t.localScope H.env decl := by
    simp only [WalkState.localScope, h.generics]
  have hframe : Walk.localFrame s decl contract = Walk.localFrame t decl contract := by
    simp only [Walk.localFrame, h.thisPair_eq]
  rw [hscope, hframe]
  refine withGenerics (.localFunction h.right.placed.generics (hH.functions hdecl))
    (h.right.visible.push hkey _) ?_
  exact inFunction hH _ _ hd (bindParams hH true decl.params _) hb

/-! ### Declarations, sinks, patterns and regions -/

theorem declareLocal (hH : H.Sound) (decl : LocalDecl) (wellFormed reportAsync : Bool)
    (init : Option ScopePair) :
    Blind H (Walk.declareLocal H.env decl wellFormed reportAsync init) :=
  (stackOnly decl.ty).bind fun _ => ite
    ((rejectedInAsync _ _ _).bind fun _ => declare hH _) (declare hH _)

theorem disposeOf (hH : H.Sound) (dispose : Option MemberRef) (op : Operand) (span : Span) :
    Blind H (Walk.disposeOf H.env dispose op span) := by
  cases dispose with
  | none => exact .pure ()
  | some r => exact inScope hH .disposal (invokeRef hH r (some op) [] .void span).discard

theorem declaredResource (decl : LocalDecl) : Blind H (Walk.declaredResource H.env decl) := by
  refine look fun s t h => ?_
  rw [Context.lookup_congr h.ctx, h.stackOnly_eq]
  exact .pure _

/-- The error of an assignment may blame another variable. -/
theorem checkAssignment (target value : Expr) (byRef : Bool) (t v : ScopePair) :
    Blind H (Walk.checkAssignment H.env target value byRef t v) :=
  look fun _ _ _ => discard_passes _ _ _

theorem checkReturned (value : Expr) (pair : ScopePair) :
    Blind H (Walk.checkReturned value pair) := by
  refine look fun s t h => ?_
  rw [Context.function_congr h.ctx]
  cases t.ctx.function with
  | none => exact .pure ()
  | some frame => exact discard_passes _ _ _

theorem bindPattern (hH : H.Sound) (name : String) (ty : TypeRef) (input : ScopePair)
    (span : Span) : Blind H (Walk.bindPattern H.env name ty input span) :=
  (checkShape hH ty span).bind fun _ => (stackOnly ty).bind fun _ =>
    declareBinding hH _ _ _ _ _

theorem accessMember (hH : H.Sound) (access : MemberAccess) (input : ScopePair)
    (receiverTy ty : TypeRef) (span : Span) :
    Blind H (Walk.accessMember H.env access input receiverTy ty span) := by
  refine look fun s t h => ?_
  simp only [h.fieldPair_eq, h.stackOnly_eq]
  cases access with
  | field owner name => exact .pure _
  | property getter => exact readProperty hH getter _ _ _ _

theorem deconstructInput (hH : H.Sound) (deconstruct : MemberRef) (componentTys : List TypeRef)
    (input : ScopePair) (inputTy : TypeRef) (span : Span) :
    Blind H (Walk.deconstructInput H.env deconstruct componentTys input inputTy span) := by
  refine look fun s t h => ?_
  simp only [h.stackOnly_eq]
  refine (resolve hH deconstruct span).bind fun callee => ?_
  cases callee with
  | none => exact .pure none
  | some callee =>
    exact ite (.pure none) ((invoke hH callee.contract _ _ _ _).bind fun _ => .pure _)

theorem refusesStackOnly (isAwait : Bool) : Blind H (Walk.refusesStackOnly isAwait) := by
  refine look fun s t h => ?_
  rw [h.forbidsLocals_eq]
  exact .pure _

theorem usingOver (hH : H.Sound) (region : UsingStmt) (op : Operand) (ty : TypeRef) (span : Span)
    (hd : directFunctions region.body ⊆ H.functions) {body : Walk Unit} (hb : Blind H body) :
    Blind H (Walk.usingOver H.env region op ty span body) := by
  refine (refusesStackOnly _).bind fun _ => ite ?_ ?_
  · exact (report _ _ _).bind fun _ => block hH hd hb
  · exact (block hH hd hb).bind fun _ => disposeOf hH region.dispose op span

theorem bindIteration (hH : H.Sound) (loop : ForeachStmt) {matchElement : ScopePair → Walk Unit}
    (hm : ∀ element, Blind H (matchElement element)) (element : ScopePair) :
    Blind H (Walk.bindIteration H.env loop matchElement element) := by
  unfold Walk.bindIteration
  split
  · exact declareBinding hH _ _ _ _ _
  · exact hm element

theorem foreachOver (hH : H.Sound) (loop : ForeachStmt) (collection : ScopePair) (span : Span)
    (hd : directFunctions loop.body ⊆ H.functions) {matchElement : ScopePair → Walk Unit}
    {body : Walk Unit} (hm : ∀ element, Blind H (matchElement element)) (hb : Blind H body) :
    Blind H (Walk.foreachOver H.env loop collection span matchElement body) := by
  refine (stackOnly _).bind fun _ => (refusesStackOnly _).bind fun _ =>
    inScope hH .block (ite ?_ ?_)
  · exact (report _ _ _).bind fun _ => (bindIteration hH loop hm _).bind fun _ => block hH hd hb
  · exact (stackOnly _).bind fun _ => (invokeRef hH _ _ _ _ _).bind fun _ =>
      (invokeRef hH _ _ _ _ _).discard.bind fun _ => (readProperty hH _ _ _ _ _).bind fun _ =>
        (bindIteration hH loop hm _).bind fun _ => (block hH hd hb).bind fun _ =>
          disposeOf hH _ _ _

end Walk.Beside

end StackEscape
