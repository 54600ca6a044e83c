import StackEscape.Proofs.Binders
import StackEscape.Proofs.MixingReports
import StackEscape.Proofs.OrdinaryRuns

/-!
# What is blamed is too narrow

An error at a return or at an assignment names a part of what flows out. The walk over parts starts
at an expression whose record falls short of what the sink demands, and it only goes on to parts
whose records fall short as well, so the one that is named does.

## Main definitions

* `StackEscape.Facts.FallsShort` — the record of an expression is too narrow.
* `StackEscape.Facts.BlameStep` — from an expression to a part that falls short.
* `StackEscape.Facts.Blames` — an expression at the end of such steps.

## Main results

* `StackEscape.Facts.blames_blame` — what is blamed falls short.
* `StackEscape.Program.returnsConfined_analyze` — references that may not be returned are confined.
* `StackEscape.Program.blames_of_reported` — every error at a return or at an assignment names
  something that falls short.
-/

set_option autoImplicit false

namespace StackEscape

/-! ## Parts -/

namespace Expr

/-- A part is smaller than the whole. -/
theorem sizeOf_lt_of_mem_children {e child : Expr} (h : child ∈ e.children) :
    sizeOf child < sizeOf e := by
  obtain ⟨id, kind, ty, span⟩ := e
  have hreceiver (receiver : Option Expr) (hc : child ∈ receiver.toList) :
      sizeOf child < sizeOf receiver := by
    cases receiver with
    | none => exact absurd hc List.not_mem_nil
    | some r => obtain rfl := List.mem_singleton.1 hc; simp
  have hargs (args : List Arg) (hc : child ∈ args.map Arg.expr) : sizeOf child < sizeOf args := by
    obtain ⟨⟨mode, a⟩, ha, rfl⟩ := List.mem_map.1 hc
    have := List.sizeOf_lt_of_mem ha
    simp at this ⊢
    omega
  cases kind
  case field receiver owner name =>
    have := hreceiver receiver h
    simp
    omega
  case property receiver getter args | call receiver method typeArgs args =>
    rcases List.mem_append.1 h with h | h
    · have := hreceiver receiver h
      simp
      omega
    · have := hargs args h
      simp
      omega
  case create ctor args =>
    have := hargs args h
    simp
    omega
  case conditional cond thenExpr elseExpr isRef =>
    obtain rfl | rfl : child = thenExpr ∨ child = elseExpr := by simpa [children] using h
    all_goals
      simp
      omega
  case convert operand explicit =>
    obtain rfl := List.mem_singleton.1 h
    simp
    omega
  case await operand =>
    obtain rfl := List.mem_singleton.1 h
    simp
    omega
  all_goals exact absurd h List.not_mem_nil

end Expr

/-! ## Blame -/

namespace Facts

variable {f : Facts} {required level : Level} {byRef next : Bool} {e child : Expr}

/-- The recorded level of an expression, of its reference or of its value, is not enough. -/
def FallsShort (f : Facts) (required : Level) (byRef : Bool) (e : Expr) (level : Level) : Prop :=
  (f.pair? e.id).map (component byRef) = some level ∧ level.allowed required = false

/-- Blame passes from an expression to a part that falls short. Values are not followed by
references. -/
inductive BlameStep (f : Facts) (required : Level) : Bool × Expr → Bool × Expr → Prop where
  /-- To a part. -/
  | part {byRef next : Bool} {e child : Expr} {level : Level} (hchild : child ∈ e.children)
    (hnext : next = true → byRef = true) (hshort : f.FallsShort required next child level) :
    BlameStep f required (byRef, e) (next, child)

/-- The name and the level are those of an expression that falls short, at the end of steps to
parts. -/
def Blames (f : Facts) (required : Level) (byRef : Bool) (e : Expr) (name : String)
    (level : Level) : Prop :=
  ∃ next part, Relation.ReflTransGen (BlameStep f required) (byRef, e) (next, part) ∧
    f.FallsShort required next part level ∧ name = part.describe

/-- Only a part that falls short is followed. -/
theorem fallsShort_of_follows (h : f.follows required byRef e.id = some next) :
    (next = true → byRef = true) ∧ ∃ level, f.FallsShort required next e level := by
  unfold follows at h
  unfold FallsShort
  cases hp : f.pair? e.id with
  | none => simp [hp] at h
  | some p =>
    simp only [hp] at h
    split at h
    next href =>
      obtain rfl := Option.some.inj h
      rw [Bool.and_eq_true, Bool.not_eq_true'] at href
      exact ⟨fun _ => href.1, p.ref, rfl, href.2⟩
    next =>
      split at h
      next hvalue =>
        obtain rfl := Option.some.inj h
        exact ⟨nofun, p.value, rfl, by simpa using hvalue⟩
      next => cases h

/-- **Blame.** What is blamed for an expression that falls short falls short itself.

**Proof sketch.** Induction on the expression. Blame passes to the first part that falls short;
where there is none it stays, and the record of the expression is the level that is given. -/
theorem blames_blame (f : Facts) (required : Level) (byRef : Bool) (e : Expr) {level : Level}
    (h : f.FallsShort required byRef e level) : f.Blames required byRef e
      (f.blame required byRef e).1 (f.blame required byRef e).2 := by
  rw [blame_eq]
  cases hfind : e.children.findSome? (f.blameChild required byRef) with
  | none =>
    have hown : f.ownLevel byRef e.id = level := by rw [ownLevel, h.1]; rfl
    exact ⟨byRef, e, .refl, hown.symm ▸ h, rfl⟩
  | some blamed =>
    obtain ⟨child, hchild, hblamed⟩ := List.exists_of_findSome?_eq_some hfind
    obtain ⟨next, hfollows, rfl⟩ := Option.map_eq_some_iff.1 hblamed
    obtain ⟨hnext, below, hbelow⟩ := fallsShort_of_follows hfollows
    obtain ⟨last, part, hsteps, hshort, hname⟩ := blames_blame f required next child hbelow
    exact ⟨last, part, hsteps.head (.part hchild hnext hbelow), hshort, hname⟩
termination_by sizeOf e
decreasing_by exact Expr.sizeOf_lt_of_mem_children hchild

end Facts

/-! ## Returns and assignments -/

namespace Walk

variable {facts : Facts} {value target : Expr} {pair t v : ScopePair} {kind : EscapeErrorKind}

/-- What a return names falls short of what the caller may look at. -/
theorem blames_of_returnError {frame : FunctionFrame} (hpair : facts.pair? value.id = some pair)
    (h : returnError facts frame value pair = some kind) : ∃ byRef name level,
      facts.Blames .returnOnly byRef value name level ∧
        kind = if byRef then .returnRefEscape name level else .valueEscape name := by
  unfold returnError at h
  split at h
  next => cases h
  next =>
    split at h
    next href =>
      rw [Bool.and_eq_true, Bool.not_eq_true'] at href
      have hshort : facts.FallsShort .returnOnly true value pair.ref := ⟨by rw [hpair]; rfl, href.2⟩
      exact ⟨true, _, _, facts.blames_blame _ _ _ hshort, (Option.some.inj h).symm⟩
    next =>
      split at h
      next hvalue =>
        rw [Bool.and_eq_true, Bool.not_eq_true'] at hvalue
        have hshort : facts.FallsShort .returnOnly false value pair.value :=
          ⟨by rw [hpair]; rfl, hvalue.2⟩
        exact ⟨false, _, _, facts.blames_blame _ _ _ hshort, (Option.some.inj h).symm⟩
      next => cases h

/-- What an assignment names falls short of what the target demands. -/
theorem blames_of_assignmentError {types : TypeEnv} {byRef : Bool}
    (hpair : facts.pair? value.id = some v)
    (h : assignmentError types facts target value byRef t v = some kind) : ∃ name level,
      facts.Blames t.ref true value name level ∧
          kind = .refAssignmentEscape name target.describe ∨
        facts.Blames t.value false value name level ∧ kind = .valueEscape name := by
  unfold assignmentError at h
  split at h
  next => cases h
  next =>
    split at h
    next href =>
      rw [Bool.and_eq_true, Bool.not_eq_true'] at href
      have hshort : facts.FallsShort t.ref true value v.ref := ⟨by rw [hpair]; rfl, href.2⟩
      exact ⟨_, _, .inl ⟨facts.blames_blame _ _ _ hshort, (Option.some.inj h).symm⟩⟩
    next =>
      split at h
      next hvalue =>
        rw [Bool.and_eq_true, Bool.not_eq_true'] at hvalue
        have hshort : facts.FallsShort t.value false value v.value :=
          ⟨by rw [hpair]; rfl, hvalue.2⟩
        exact ⟨_, _, .inr ⟨facts.blames_blame _ _ _ hshort, (Option.some.inj h).symm⟩⟩
      next => cases h

/-- A return reports what it blames, behind the errors of the returned value. -/
theorem errors_checkStmt_ret (env : Surroundings) (id : NodeId) (value : Expr) (span : Span)
    (s : WalkState) : ∃ errors,
      ((checkStmt env ⟨id, .ret (some value), span⟩).after s).errors =
        ((checkExpr env value).after s).errors ++ errors ∧
      ∀ e ∈ errors, e.span = value.span ∧ ∃ byRef name level,
        ((checkExpr env value).after s).facts.Blames .returnOnly byRef value name level ∧
          e.kind = if byRef then .returnRefEscape name level else .valueEscape name := by
  rw [checkStmt, after_bind, after_checkReturned]
  refine ⟨_, rfl, fun e he => ?_⟩
  obtain ⟨kind, hkind, rfl⟩ := List.mem_map.1 he
  obtain ⟨frame, -, herror⟩ := Option.bind_eq_some_iff.1 (Option.mem_toList.1 hkind)
  exact ⟨rfl, blames_of_returnError (pair?_checkExpr env value s) herror⟩

/-- An assignment that calls no setter reports what it blames, behind the errors of its sides. -/
theorem errors_checkStmt_assign (env : Surroundings) (id : NodeId) (target value : Expr)
    (byRef : Bool) (span : Span)
    (hplain : ∀ receiver getter args, target.kind = .property receiver getter args → byRef = true)
    (s : WalkState) :
    let left := (checkExpr env target).answer s
    let between := (checkExpr env target).after s
    ∃ errors, ((checkStmt env ⟨id, .assign target value byRef, span⟩).after s).errors =
        ((checkExpr env value).after between).errors ++ errors ∧
      ∀ e ∈ errors, e.span = value.span ∧ ∃ name level,
        ((checkExpr env value).after between).facts.Blames left.ref true value name level ∧
            e.kind = .refAssignmentEscape name target.describe ∨
          ((checkExpr env value).after between).facts.Blames left.value false value name level ∧
            e.kind = .valueEscape name := by
  intro left between
  rw [checkStmt_assign env id value span hplain, after_bind, after_bind, after_checkAssignment]
  refine ⟨_, rfl, fun e he => ?_⟩
  obtain ⟨kind, hkind, rfl⟩ := List.mem_map.1 he
  exact ⟨rfl, blames_of_assignmentError (pair?_checkExpr env value between)
    (Option.mem_toList.1 hkind)⟩

end Walk

/-! ## Returned references -/

/-- If the error is about a returned reference, the reference is confined to the method. -/
def EscapeError.ReturnsConfined (e : EscapeError) : Prop :=
  ∀ name level, e.kind = .returnRefEscape name level → level = .currentMethod

theorem EscapeError.returnsConfined_of_errorClass {e : EscapeError}
    (h : e.errorClass ≠ .escapeViolation) : e.ReturnsConfined := by
  intro name level hkind
  rw [EscapeError.errorClass, hkind] at h
  exact absurd rfl h

namespace Walk

/-- No sink reports that a reference is returned that may leave the method. -/
theorem closedAtSinks_returnsConfined (env : Surroundings) :
    ClosedAtSinks env (Reports EscapeError.ReturnsConfined) where
  toClosed := Reports.closed fun _ => EscapeError.returnsConfined_of_errorClass
  mixing facts c receiver args span := by
    refine Reports.reportAll fun e he => ?_
    rcases Contract.report_of_mem_mixingErrors he with ⟨j, sink, -, rfl⟩ |
      ⟨i, op, j, sink, -, -, -, rfl⟩ <;> exact nofun
  assigned target value byRef t v := by
    intro s
    rw [after_checkAssignment]
    refine ⟨_, rfl, fun e he => ?_⟩
    obtain ⟨kind, hkind, rfl⟩ := List.mem_map.1 he
    have hkind := Option.mem_toList.1 hkind
    unfold assignmentError at hkind
    intro name level (h : kind = _)
    grind
  returned := by
    intro value hvalue s
    obtain ⟨errors, hafter, herrors⟩ := hvalue s
    obtain ⟨more, hmore, hblames⟩ := errors_checkStmt_ret env 0 value .zero s
    rw [checkStmt] at hmore
    refine ⟨errors ++ more, by rw [hmore, hafter, List.append_assoc],
      List.forall_mem_append.2 ⟨herrors, fun e he => ?_⟩⟩
    obtain ⟨-, byRef, name, level, ⟨next, part, -, hshort, -⟩, hkind⟩ := hblames e he
    -- Below what the caller may look at, there is one level.
    have hlow : level = .currentMethod := by
      have := hshort.2
      cases level <;> first | rfl | exact absurd this (by decide)
    intro name' level' hkind'
    rw [hkind] at hkind'
    split at hkind'
    next => exact (EscapeErrorKind.returnRefEscape.inj hkind').2 ▸ hlow
    next => cases hkind'

end Walk

namespace Program

variable {p : Program}

/-- The walk over a member reports no returned reference that may leave the method. -/
theorem returnsConfined_walkMember (runtime : Bool) (T : Tables) (m : Member) (body : List Stmt) :
    ∀ e ∈ (p.walkMember runtime T m body).errors, e.ReturnsConfined := by
  have hclosed := Walk.closedAtSinks_returnsConfined ⟨p, m, runtime⟩
  have hwalk (contract : Contract) : Walk.Reports EscapeError.ReturnsConfined
      (Walk.member ⟨p, m, runtime⟩ contract body) :=
    (hclosed.bindParams false _ _).bind fun _ =>
      (hclosed.declareFunctions _).bind fun _ => hclosed.checkStmts body
  obtain ⟨errors, hafter, herrors⟩ := hwalk (p.entryContract T m) (p.entry T m)
  change ∀ e ∈ ((Walk.member ⟨p, m, runtime⟩ (p.entryContract T m) body).after
    (p.entry T m)).errors, e.ReturnsConfined
  rw [hafter]
  exact List.forall_mem_append.2 ⟨fun _ he => absurd he List.not_mem_nil, herrors⟩

/-- Neither do the walks over some members, one after the other. -/
theorem returnsConfined_checkMembers (runtime : Bool) (T : Tables) (ms : List Member) :
    ∀ e ∈ (p.checkMembers runtime T ms).1.errors, e.ReturnsConfined := by
  induction ms using List.reverseRecOn with
  | nil => exact fun _ he => absurd he List.not_mem_nil
  | append_singleton ms m ih =>
    rw [checkMembers_append_singleton]
    refine List.forall_mem_append.2 ⟨ih, ?_⟩
    cases hbody : m.decl.body with
    | none =>
      rw [checkMember_of_none hbody]
      exact fun _ he => absurd he List.not_mem_nil
    | some body =>
      rw [checkMember_of_some hbody]
      exact returnsConfined_walkMember runtime _ m body

/-- Every error of a run about a returned reference says that it is confined to the method. -/
theorem returnsConfined_analyze (p : Program) (options : Options) :
    ∀ e ∈ (p.analyze options).escapeErrors, e.ReturnsConfined := by
  refine List.forall_mem_append.2 ⟨fun e he => ?_, returnsConfined_checkMembers _ _ _⟩
  exact EscapeError.returnsConfined_of_errorClass (errorClass_of_mem_contractErrors he ▸ nofun)

/-- **What is blamed is too narrow.** In every state of a walk, an error of a return names the value
that is returned or a part of it, reached from it by steps to parts, whose record falls short of
what the caller may look at; and an error of an assignment that calls no setter names one whose
record falls short of what the target demands. Every error about a returned reference says that it
is confined to the method, in every run over every program. -/
theorem blames_of_reported :
    (∀ (env : Surroundings) (s : WalkState) (id : NodeId) (value : Expr) (span : Span),
      let facts := ((Walk.checkExpr env value).after s).facts
      ∃ errors, ((Walk.checkStmt env ⟨id, .ret (some value), span⟩).after s).errors =
          ((Walk.checkExpr env value).after s).errors ++ errors ∧
        ∀ e ∈ errors, e.span = value.span ∧ ∃ byRef name level,
          facts.Blames .returnOnly byRef value name level ∧
            e.kind = if byRef then .returnRefEscape name level else .valueEscape name) ∧
    (∀ (env : Surroundings) (s : WalkState) (id : NodeId) (target value : Expr) (byRef : Bool)
      (span : Span), (∀ receiver getter args,
        target.kind = .property receiver getter args → byRef = true) →
      let left := (Walk.checkExpr env target).answer s
      let between := (Walk.checkExpr env target).after s
      let facts := ((Walk.checkExpr env value).after between).facts
      ∃ errors, ((Walk.checkStmt env ⟨id, .assign target value byRef, span⟩).after s).errors =
          ((Walk.checkExpr env value).after between).errors ++ errors ∧
        ∀ e ∈ errors, e.span = value.span ∧ ∃ name level,
          facts.Blames left.ref true value name level ∧
              e.kind = .refAssignmentEscape name target.describe ∨
            facts.Blames left.value false value name level ∧ e.kind = .valueEscape name) ∧
    ∀ (p : Program) (options : Options), ∀ e ∈ (p.analyze options).escapeErrors,
      ∀ name level, e.kind = .returnRefEscape name level → level = .currentMethod :=
  ⟨fun env s id value span => Walk.errors_checkStmt_ret env id value span s,
    fun env s id target value byRef span hplain =>
      Walk.errors_checkStmt_assign env id target value byRef span hplain s,
    fun p options => returnsConfined_analyze p options⟩

end Program

/-! ## A slot that leaks -/

namespace Leaks

open Slots

/-- Returns the reference in a slot that is confined. -/
def leak : FnDecl :=
  fn 3 "Leak" [slotParam "slot" .none true] (.byRef .int)
    [⟨4, .ret (some ⟨5, .field (some (slotVar 6 "slot")) slotTy "value", .int, .zero⟩), .zero⟩]

/-- The assignment of a confined slot to another one. -/
def drop : Stmt := ⟨8, .assign (slotVar 9 "slot") (slotVar 10 "buf") false, .zero⟩

/-- Does that with its parameters. -/
def spill : FnDecl :=
  fn 7 "Spill" [slotParam "slot" .none false, slotParam "buf" .none true] .nothing [drop]

/-- The class of both functions. -/
def leaks : TypeDecl :=
  ⟨2, "Leaks", .classType, false, false, [], [], [], [], [leak, spill], .zero⟩

/-- A program with slots that leak. -/
def program : Program :=
  ⟨[⟨1, "Slot", .refStruct, false, false, [], [], [],
    [⟨"value", .int, false, false, false, true, .zero⟩], [], .zero⟩, leaks]⟩

/-- The surroundings of the assignment. -/
def env : Surroundings := ⟨program, ⟨leaks, spill⟩, true⟩

/-- The state before it. -/
def start : WalkState := program.bodyEntry true {} ⟨leaks, spill⟩ [drop]

/-- The variable is blamed for the reference in it, and for itself. -/
theorem blames_of_reported_leaks :
    (program.analyze {}).escapeErrors =
        [⟨.returnRefEscape "slot" .currentMethod, .zero⟩, ⟨.valueEscape "buf", .zero⟩] ∧
      (∀ name level, EscapeErrorKind.returnRefEscape "slot" .currentMethod =
        .returnRefEscape name level → level = .currentMethod) ∧
      ((Walk.checkStmt env drop).after start).errors = [⟨.valueEscape "buf", .zero⟩] ∧
      ∃ level, ((Walk.checkExpr env (slotVar 10 "buf")).after
        ((Walk.checkExpr env (slotVar 9 "slot")).after start)).facts.Blames .callingMethod false
          (slotVar 10 "buf") "buf" level := by
  obtain ⟨-, hassign, hreturn⟩ := Program.blames_of_reported
  have hanalyze : (program.analyze {}).escapeErrors =
      [⟨.returnRefEscape "slot" .currentMethod, .zero⟩, ⟨.valueEscape "buf", .zero⟩] := by
    decide +kernel
  have hdrop : ((Walk.checkStmt env drop).after start).errors = [⟨.valueEscape "buf", .zero⟩] := by
    decide +kernel
  refine ⟨hanalyze, hreturn program {} _ (hanalyze ▸ List.mem_cons_self), hdrop, ?_⟩
  obtain ⟨errors, hafter, hblames⟩ :=
    hassign env start 8 (slotVar 9 "slot") (slotVar 10 "buf") false .zero nofun
  have hsides : ((Walk.checkExpr env (slotVar 10 "buf")).after
      ((Walk.checkExpr env (slotVar 9 "slot")).after start)).errors = [] := by decide +kernel
  rw [hsides, List.nil_append] at hafter
  obtain rfl : errors = [⟨.valueEscape "buf", .zero⟩] := hafter.symm.trans hdrop
  have hleft : ((Walk.checkExpr env (slotVar 9 "slot")).answer start).value = .callingMethod := by
    decide +kernel
  obtain ⟨-, name, level, ⟨-, hkind⟩ | ⟨hblamed, hkind⟩⟩ := hblames _ List.mem_cons_self
  · cases hkind
  · obtain rfl := EscapeErrorKind.valueEscape.inj hkind
    exact ⟨level, hleft ▸ hblamed⟩

end Leaks

end StackEscape
