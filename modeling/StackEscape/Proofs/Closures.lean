import StackEscape.Proofs.Visits

/-!
# Closures

A lambda or local function may outlive the variables around it. A stack-only one is therefore not read
inside of it: the read is given up and reported, at any depth of blocks and functions, and so is the
read of a stack-only parameter of a primary constructor in a member that may run later. The function's
own variables are no concern.

## Main definitions

* `StackEscape.Context.Names` — a variable of the name is declared in some scopes.
* `StackEscape.Context.OfNested` — the scopes of a nested function, from where it begins.
* `StackEscape.Spot.Enclosed` — the scopes at a spot are those of the innermost nested function and
  those around it.

## Main results

* `StackEscape.Context.lookup_of_names`, `lookup_of_not_names` — what a name means in a nested function.
* `StackEscape.Spot.Leads.enclosed` — the walk keeps the scopes of functions apart.
* `StackEscape.Program.captures_refused` — no stack-only variable is captured.
-/

set_option autoImplicit false

namespace StackEscape

/-! ## Names in a nested function -/

namespace Context

/-- Is a variable of the name declared in one of the scopes? -/
def Names (name : String) (scopes : List Scope) : Prop :=
  ∃ scope ∈ scopes, ∃ info ∈ scope.locals, info.name = name

instance (name : String) (scopes : List Scope) : Decidable (Names name scopes) :=
  inferInstanceAs (Decidable (∃ scope ∈ scopes, ∃ info ∈ scope.locals, info.name = name))

/-- The scopes of a nested function: it begins with the last one. -/
def OfNested (own : List Scope) : Prop :=
  ∃ inner top, own = inner ++ [top] ∧ top.kind.isNested = true ∧
    ∀ scope ∈ inner, scope.kind.isNested = false

variable {name : String} {own outer : List Scope} {scope : Scope} {crossed : Option ScopeKind}

/-- A scope has a last variable of each name that it declares. -/
theorem lastLocal_eq_none_iff :
    lastLocal scope name = none ↔ ∀ info ∈ scope.locals, info.name ≠ name := by
  simp [lastLocal]

/-- The last variable of a name is one of the scope, with that name. -/
theorem mem_of_lastLocal {info : LocalInfo} (h : lastLocal scope name = some info) :
    info ∈ scope.locals ∧ info.name = name :=
  ⟨List.mem_reverse.1 (List.mem_of_find?_eq_some h), by simpa using List.find?_some h⟩

/-- Once a function is crossed, it stays crossed. -/
theorem crossed_of_lookupIn {kind : ScopeKind} {scopes : List Scope} {found : Lookup}
    (h : lookupIn name (some kind) scopes = some found) : found.crossed = some kind := by
  induction scopes with
  | nil => exact absurd h (by simp [lookupIn])
  | cons scope rest ih =>
    rw [lookupIn] at h
    split at h
    · rw [← Option.some.inj h]
    · exact ih h

/-- A name that the innermost function declares means a variable of that function. -/
theorem lookup_of_names (hown : OfNested own) (h : Names name own) : ∃ info,
    (∃ scope ∈ own, info ∈ scope.locals) ∧ info.name = name ∧
      lookupIn name none (own ++ outer) = some ⟨info, none⟩ := by
  obtain ⟨inner, top, rfl, _, hinner⟩ := hown
  induction inner with
  | nil =>
    obtain ⟨scope, hscope, info, hinfo, hname⟩ := h
    obtain rfl := List.mem_singleton.1 hscope
    cases hlast : lastLocal scope name with
    | none => exact absurd hname (lastLocal_eq_none_iff.1 hlast info hinfo)
    | some last =>
      obtain ⟨hmem, hlastName⟩ := mem_of_lastLocal hlast
      exact ⟨last, ⟨scope, hscope, hmem⟩, hlastName, by simp [lookupIn, hlast]⟩
  | cons first inner ih =>
    have hkind := hinner first (List.mem_cons_self ..)
    cases hlast : lastLocal first name with
    | some last =>
      obtain ⟨hmem, hlastName⟩ := mem_of_lastLocal hlast
      exact ⟨last, ⟨first, List.mem_cons_self .., hmem⟩, hlastName, by simp [lookupIn, hlast]⟩
    | none =>
      obtain ⟨scope, hscope, info, hinfo, hname⟩ := h
      have hrest : Names name (inner ++ [top]) := by
        rcases List.mem_cons.1 hscope with rfl | hscope
        · exact absurd hname (lastLocal_eq_none_iff.1 hlast info hinfo)
        · exact ⟨scope, hscope, info, hinfo, hname⟩
      obtain ⟨last, ⟨scope, hscope, hmem⟩, hlastName, hlookup⟩ :=
        ih hrest fun scope hscope => hinner scope (List.mem_cons_of_mem _ hscope)
      refine ⟨last, ⟨scope, List.mem_cons_of_mem _ hscope, hmem⟩, hlastName, ?_⟩
      simpa [lookupIn, hlast, hkind] using hlookup

/-- Any other name means what it means outside, across a function. -/
theorem lookup_of_not_names (hown : OfNested own) (h : ¬ Names name own) : ∃ kind,
    lookupIn name none (own ++ outer) = lookupIn name (some kind) outer := by
  obtain ⟨inner, top, rfl, htop, hinner⟩ := hown
  have hnone (scope : Scope) (hscope : scope ∈ inner ++ [top]) : lastLocal scope name = none :=
    lastLocal_eq_none_iff.2 fun info hinfo hname => h ⟨scope, hscope, info, hinfo, hname⟩
  refine ⟨top.kind, ?_⟩
  induction inner with
  | nil => simp [lookupIn, hnone top (by simp), htop]
  | cons first inner ih =>
    have hnot : ¬ Names name (inner ++ [top]) := by
      rintro ⟨scope, hscope, hinfo⟩
      exact h ⟨scope, List.mem_cons_of_mem _ hscope, hinfo⟩
    have hrest := ih hnot (fun scope hscope => hinner scope (List.mem_cons_of_mem _ hscope))
      fun scope hscope => hnone scope (List.mem_cons_of_mem _ hscope)
    simpa [lookupIn, hnone first (List.mem_cons_self ..), hinner first (List.mem_cons_self ..)]
      using hrest

/-- A change of the innermost scope that leaves its kind alone stays within the function. -/
theorem OfNested.modifyTop (hown : OfNested own) {c : Context} (hc : c.scopes = own ++ outer)
    {f : Scope → Scope} (hf : ∀ scope, (f scope).kind = scope.kind) :
    ∃ own', OfNested own' ∧ (c.modifyTop f).scopes = own' ++ outer := by
  obtain ⟨inner, top, rfl, htop, hinner⟩ := hown
  cases inner with
  | nil =>
    refine ⟨[f top], ⟨[], f top, rfl, by rwa [hf], by simp⟩, ?_⟩
    rw [Context.modifyTop, hc]
    rfl
  | cons first inner =>
    refine ⟨f first :: (inner ++ [top]), ⟨f first :: inner, top, rfl, htop, ?_⟩, ?_⟩
    · intro scope hscope
      rcases List.mem_cons.1 hscope with rfl | hscope
      · rw [hf]
        exact hinner first (List.mem_cons_self ..)
      · exact hinner scope (List.mem_cons_of_mem _ hscope)
    · rw [Context.modifyTop, hc]
      rfl

end Context

/-! ## Spots in a nested function -/

namespace Spot

open Context (OfNested)

/-- The scopes at the spot are those of the innermost nested function and those around it. -/
def Enclosed (p : Spot) : Prop :=
  match p.outside with
  | none => ∀ scope ∈ p.state.ctx.scopes, scope.kind.isNested = false
  | some outer => ∃ own, OfNested own ∧ p.state.ctx.scopes = own ++ outer

namespace Enclosed

variable {p : Spot}

/-- Names may be declared in the innermost scope. -/
theorem modifyTop (h : p.Enclosed) {t : WalkState} {f : Scope → Scope}
    (hf : ∀ scope, (f scope).kind = scope.kind) (ht : t.ctx = p.state.ctx.modifyTop f) :
    Enclosed { p with state := t } := by
  unfold Enclosed at h ⊢
  simp only [ht]
  split at h
  · rcases hc : p.state.ctx with ⟨_ | ⟨first, rest⟩, frames⟩
    · simp [Context.modifyTop]
    · simp only [hc, List.forall_mem_cons] at h
      simpa [Context.modifyTop, hf] using h
  · obtain ⟨own, hown, hscopes⟩ := h
    exact hown.modifyTop hscopes hf

/-- Variables may be declared. -/
theorem declareAll (h : p.Enclosed) {t : WalkState} {infos : List LocalInfo}
    (ht : t.ctx = p.state.ctx.declareAll infos) : Enclosed { p with state := t } :=
  h.modifyTop (f := fun scope => { scope with locals := scope.locals ++ infos }) (fun _ => rfl) ht

/-- Local functions may be declared. -/
theorem functions (h : p.Enclosed) (stmts : List Stmt) : (p.functions stmts).Enclosed :=
  h.modifyTop
    (f := fun scope => { scope with
      functions := Context.functionTable scope.functions (directFunctions stmts) })
    (fun _ => rfl) (Context.declareFunctions_eq _ _)

/-- A block belongs to the function around it. -/
theorem block (h : p.Enclosed) {kind : ScopeKind} (hkind : kind.isFunction = false)
    (stmts : List Stmt) : (p.block kind stmts).Enclosed := by
  have hnested : kind.isNested = false := by cases kind <;> first | rfl | exact hkind
  have hpush : Enclosed { p with state := { p.state with ctx := p.state.ctx.pushScope kind } } := by
    unfold Enclosed at h ⊢
    simp only [Context.pushScope]
    split at h
    · simpa [hnested] using h
    · obtain ⟨own, ⟨inner, top, rfl, htop, hinner⟩, hscopes⟩ := h
      refine ⟨⟨kind, [], .empty⟩ :: (inner ++ [top]), ⟨⟨kind, [], .empty⟩ :: inner, top, rfl, htop,
        by simpa [hnested] using hinner⟩, by rw [hscopes]; rfl⟩
  exact hpush.functions stmts

/-- A nested function begins with a scope of its own. -/
theorem enter (p : Spot) {kind : ScopeKind} (hkind : kind.isNested = true)
    (frame : FunctionFrame) : (p.enter kind frame).Enclosed :=
  ⟨[⟨kind, [], .empty⟩], ⟨[], _, rfl, hkind, by simp⟩, rfl⟩

end Enclosed

/-- The walk keeps the scopes of functions apart. -/
theorem Leads.enclosed {env : Surroundings} {p q : Spot} (h : Leads env p q) (hp : p.Enclosed) :
    q.Enclosed := by
  induction h with
  | here => exact hp
  | later _ ht ih =>
    obtain ⟨infos, hctx⟩ := ht.context
    exact ih.declareAll hctx
  | block _ hkind _ ih => exact ih.block hkind _
  | enter _ hkind frame _ => exact .enter _ hkind frame
  | functions _ _ ih => exact ih.functions _
  | typeParams _ _ _ ih => exact ih

end Spot

namespace Program

/-- The walk over a member starts outside of all nested functions. -/
theorem enclosed_bodySpot (p : Program) (runtime : Bool) (T : Tables) (m : Member)
    (body : List Stmt) : (p.bodySpot runtime T m body).Enclosed := by
  have hentry : Spot.Enclosed ⟨p.entry T m, none⟩ := by
    intro scope hscope
    obtain rfl := List.mem_singleton.1 hscope
    rfl
  obtain ⟨infos, hctx⟩ := (progress_bindMember p runtime T m).context
  exact (hentry.declareAll hctx).functions body

end Program

/-! ## Reads of variables -/

namespace Walk

variable {env : Surroundings} {s : WalkState} {name : String} {found : Lookup} {param : Param}

/-- A variable of the function itself is read without an error. -/
theorem after_readVariable_own (h : s.ctx.lookup name = some found) (hown : found.crossed = none)
    (span : Span) : (readVariable env name span).after s = s := by
  simp only [readVariable, after_bind, answer_get, after_get, h, hown, Option.isSome_none,
    Bool.false_and, Bool.false_eq_true, if_false, after_pure]

/-- A stack-only variable of a function around it is not. -/
theorem run_readVariable_captured (h : s.ctx.lookup name = some found)
    (hcrossed : found.crossed.isSome = true) (hso : found.info.stackOnly = true) (span : Span) :
    (readVariable env name span).answer s = .invalid ∧
      (readVariable env name span).after s = { s with errors := s.errors ++
        [⟨.closureCapture found.info.name found.info.ty.display, span⟩] } := by
  simp only [readVariable, answer_bind, after_bind, answer_get, after_get, h, hcrossed, hso,
    Bool.and_self, if_true]
  exact ⟨rfl, rfl⟩

/-- Nor is a stack-only parameter of the primary constructor, where the object is built already. -/
theorem run_readVariable_primary (h : s.ctx.lookup name = none)
    (hparam : (env.member.owner.primaryParams.find? fun q => decide (q.name = name)) = some param)
    (hso : (s.types env).stackOnly param.ty = true) (hkind : env.member.decl.kind ≠ .ctor)
    (span : Span) :
    (readVariable env name span).answer s = .invalid ∧
      (readVariable env name span).after s = { s with errors := s.errors ++
        [⟨.primaryConstructorCapture param.name param.ty.display, span⟩] } := by
  have hanswer : (stackOnly env param.ty).answer s = true := hso
  have hafter : (stackOnly env param.ty).after s = s := rfl
  have hrefused : (true && decide (env.member.decl.kind ≠ .ctor)) = true := by simpa using hkind
  simp only [readVariable, readPrimaryParam, answer_bind, after_bind, answer_get, after_get, h,
    hparam, hanswer, hafter, hrefused, if_true]
  exact ⟨rfl, rfl⟩

end Walk

namespace Visit

variable {env : Surroundings} {v : Visit} {name : String}

/-- The error by which a value is refused in an expression tree. -/
def refusal (v : Visit) : EscapeError := ⟨.expressionTree v.expr.ty.display, v.expr.span⟩

/-- The expression is given up and reported: for the given reason, unless an expression tree refuses
its value in the first place. -/
def GivenUp (env : Surroundings) (v : Visit) (kind : EscapeErrorKind) : Prop :=
  v.pair env = .invalid ∧ (v.done env).errors = v.spot.state.errors ++
    [if v.spot.state.refusesValue env v.expr.ty then v.refusal else ⟨kind, v.expr.span⟩]

/-- A read does what looking up its variable does, unless an expression tree refuses it. -/
theorem run_var (env : Surroundings) (hname : v.expr.kind = .var name) :
    if v.spot.state.refusesValue env v.expr.ty then
      v.pair env = .invalid ∧ (v.done env).errors = v.spot.state.errors ++ [v.refusal]
    else v.pair env = (Walk.readVariable env name v.expr.span).answer v.spot.state ∧
      (v.done env).errors = ((Walk.readVariable env name v.expr.span).after v.spot.state).errors := by
  obtain ⟨p, ⟨id, kind, ty, span⟩⟩ := v
  obtain rfl : kind = .var name := hname
  split
  · next h =>
    obtain ⟨hpair, hdone⟩ := Walk.run_checkExpr_refused h id (.var name) span
    exact ⟨hpair, by rw [done, hdone]; rfl⟩
  · next h =>
    obtain ⟨hpair, hdone⟩ := Walk.run_checkExpr_form (Bool.eq_false_iff.2 h) id (.var name) span
    rw [Walk.checkForm] at hpair hdone
    exact ⟨hpair, by rw [done, hdone]⟩

/-- If looking up its variable fails, a read is given up. -/
theorem givenUp_of_read (hname : v.expr.kind = .var name) {kind : EscapeErrorKind}
    (hread : (Walk.readVariable env name v.expr.span).answer v.spot.state = .invalid ∧
      (Walk.readVariable env name v.expr.span).after v.spot.state = { v.spot.state with
        errors := v.spot.state.errors ++ [⟨kind, v.expr.span⟩] }) : v.GivenUp env kind := by
  have hrun := run_var env hname
  unfold GivenUp
  split at hrun
  · next h => exact ⟨hrun.1, by rw [hrun.2, if_pos h]⟩
  · next h => exact ⟨hrun.1.trans hread.1, by rw [hrun.2, if_neg h, hread.2]⟩

/-- If looking up its variable succeeds, a read is only refused by an expression tree. -/
theorem errors_of_read (hname : v.expr.kind = .var name)
    (hread : (Walk.readVariable env name v.expr.span).after v.spot.state = v.spot.state) :
    (v.done env).errors = v.spot.state.errors ++
      if v.spot.state.refusesValue env v.expr.ty then [v.refusal] else [] := by
  have hrun := run_var env hname
  split at hrun
  · next h => rw [hrun.2, if_pos h]
  · next h => rw [hrun.2, if_neg h, hread, List.append_nil]

end Visit

namespace Program

variable {p : Program} {m : Member} {v : Visit} {name : String} {outer : List Scope}

/-- The scopes around a visit are those that the walk keeps for it. -/
theorem enclosed_visits (hv : (m, v) ∈ p.visits) : v.spot.Enclosed := by
  obtain ⟨_, _, _, body, _, hleads⟩ := leads_visits hv
  exact hleads.enclosed (enclosed_bodySpot p true _ m body)

/-- A visit is inside of a nested function if and only if such a function was entered. -/
theorem isSome_outside_iff (hv : (m, v) ∈ p.visits) : v.spot.outside.isSome = true ↔
    ∃ scope ∈ v.spot.state.ctx.scopes, scope.kind.isNested = true := by
  have henclosed := enclosed_visits hv
  unfold Spot.Enclosed at henclosed
  split at henclosed
  · next hnone => simpa [hnone] using henclosed
  · next outer houter =>
    obtain ⟨own, ⟨inner, top, rfl, htop, _⟩, hscopes⟩ := henclosed
    rw [houter, hscopes]
    exact ⟨fun _ => ⟨top, by simp, htop⟩, fun _ => rfl⟩

/-- **Captures.** Whenever a run looks at a variable inside of a lambda or local function, a stack-only
variable that is not declared inside of the innermost one is given up and reported, and outside of
constructors a stack-only parameter of the primary constructor is too. A variable declared inside is no
capture. In an expression tree a stack-only value is refused as such instead. -/
theorem captures_refused (hv : (m, v) ∈ p.visits) (hname : v.expr.kind = .var name)
    (houter : v.spot.outside = some outer) :
    let env : Surroundings := ⟨p, m, true⟩
    let s := v.spot.state
    (v.done env).errors ⊆ (p.analyze {}).escapeErrors ∧
      ∃ own, Context.OfNested own ∧ s.ctx.scopes = own ++ outer ∧
        (Context.Names name own → (v.done env).errors =
          s.errors ++ if s.refusesValue env v.expr.ty then [v.refusal] else []) ∧
        (¬ Context.Names name own → ∀ found, s.ctx.lookup name = some found →
          found.info.stackOnly = true →
          v.GivenUp env (.closureCapture found.info.name found.info.ty.display)) ∧
        (s.ctx.lookup name = none → m.decl.kind ≠ .ctor → ∀ param,
          (m.owner.primaryParams.find? fun q => decide (q.name = name)) = some param →
          (s.types env).stackOnly param.ty = true →
          v.GivenUp env (.primaryConstructorCapture param.name param.ty.display)) := by
  intro env s
  have henclosed := enclosed_visits hv
  unfold Spot.Enclosed at henclosed
  rw [houter] at henclosed
  obtain ⟨own, hown, hscopes⟩ := henclosed
  refine ⟨errors_visits hv, own, hown, hscopes, fun hnames => ?_, fun hnot found hfound hso => ?_,
    fun hnone hkind param hparam hso => ?_⟩
  · obtain ⟨info, _, _, hlookup⟩ := Context.lookup_of_names hown hnames
    rw [← hscopes] at hlookup
    exact Visit.errors_of_read hname (Walk.after_readVariable_own hlookup rfl v.expr.span)
  · obtain ⟨kind, hlookup⟩ := Context.lookup_of_not_names hown hnot
    have hcrossed : found.crossed = some kind := by
      rw [Context.lookup, hscopes, hlookup] at hfound
      exact Context.crossed_of_lookupIn hfound
    refine Visit.givenUp_of_read hname (Walk.run_readVariable_captured hfound ?_ hso v.expr.span)
    rw [hcrossed, Option.isSome_some]
  · exact Visit.givenUp_of_read hname
      (Walk.run_readVariable_primary hnone hparam hso hkind v.expr.span)

end Program

/-! ## Closures that read a slot -/

namespace Cells

open Slots

/-- A lambda that reads a slot. -/
def closure (isExpressionTree : Bool) : Stmt :=
  ⟨10, .expr ⟨11, .lambda ⟨[], .void, [⟨12, .expr (slotVar 13 "s"), .zero⟩], isExpressionTree, false,
    false⟩, .object, .zero⟩, .zero⟩

/-- A function with a slot and a lambda that reads it. -/
def run (isExpressionTree : Bool) : FnDecl :=
  fn 7 "Run" [slotParam "s" .none false] .nothing [closure isExpressionTree]

/-- A constructor with the lambda. -/
def ctor : FnDecl :=
  ⟨8, ".ctor", .ctor, default, [], [], .nothing, [], none, none, some [closure false], .zero⟩

/-- A class with a primary constructor and a member. -/
def decl (params : List Param) (member : FnDecl) : TypeDecl :=
  ⟨6, "Cells", .classType, false, false, [], [], params, [], [member], .zero⟩

/-- A program with slots and the class. -/
def programOf (params : List Param) (member : FnDecl) : Program :=
  ⟨[⟨1, "Slot", .refStruct, false, false, [], [], [], [], [], .zero⟩, decl params member]⟩

/-- The slot is captured in an expression tree and in a constructor, but neither read is reported as a
capture: the first is refused as a value, and the second is accepted. -/
theorem captured_unreported :
    let tree := programOf [] (run true)
    let primary := programOf [slotParam "s" .none false] ctor
    (∃ x ∈ tree.visits, x.2.expr.id = 13 ∧ x.2.spot.outside.isSome = true ∧
        (x.2.spot.state.ctx.lookup "s").any (fun f => f.crossed.isSome && f.info.stackOnly) = true) ∧
      (tree.analyze {}).escapeErrors = [⟨.expressionTree "Slot", .zero⟩] ∧
      (∃ x ∈ primary.visits, x.2.expr.id = 13 ∧ x.2.spot.outside.isSome = true ∧
        (x.2.spot.state.ctx.lookup "s").isNone = true) ∧
      (primary.analyze {}).isOk = true := by
  decide +kernel

/-- In a lambda of a method the read is given up. -/
theorem captures_refused_cells :
    let p := programOf [] (run false)
    let m : Member := ⟨decl [] (run false), run false⟩
    ∃ v outer, (m, v) ∈ p.visits ∧ v.expr.kind = .var "s" ∧ v.spot.outside = some outer ∧
      v.GivenUp ⟨p, m, true⟩ (.closureCapture "s" "Slot") := by
  intro p m
  have hlength : 1 < p.visits.length := by decide +kernel
  let v : Visit := (p.visits.get ⟨1, hlength⟩).2
  let outer : List Scope := v.spot.state.ctx.scopes.tail
  have hv : (m, v) ∈ p.visits := List.get_mem p.visits ⟨1, hlength⟩
  have hname : v.expr.kind = .var "s" := rfl
  have houter : v.spot.outside = some outer := rfl
  obtain ⟨_, own, _, hscopes, _, hcaptured, _⟩ := Program.captures_refused hv hname houter
  have hown : own = [⟨.lambda false, [], .empty⟩] := List.append_cancel_right hscopes.symm
  exact ⟨v, outer, hv, hname, houter,
    hcaptured (by rw [hown]; decide) ⟨_, _⟩ rfl rfl⟩

end Cells

end StackEscape
