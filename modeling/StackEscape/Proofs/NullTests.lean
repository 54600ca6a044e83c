import Mathlib
import StackEscape.Proofs.Trees

/-!
# Null tests

A null test can be written as a comparison, with the null on either side, or as a match with the null
constant under some negations. Comparisons and matches under at most one negation are judged alike:
they are refused or lowered as the subject's capability says, wherever they stand. A match under more
negations is not judged, nor is any null constant inside of a property or positional pattern: the walk
cannot tell it from another constant.

## Main definitions

* `StackEscape.NullTestForm` — the ways to write a null test.
* `StackEscape.NullTestForm.Judged` — those that are judged.
* `StackEscape.WalkState.Accepts` — expressions that are accepted from a state on.
* `StackEscape.Pattern.replaceNull` — a pattern with another constant wherever it compares with null.

## Main results

* `StackEscape.Walk.checkPattern_replaceNull` — the walk over a pattern takes no notice of null.
* `StackEscape.Walk.null_tests_judged` — how null tests are judged by form and depth.
* `StackEscape.Bins.null_tests_overlooked` — those that are not judged would have to be refused.
-/

set_option autoImplicit false

namespace StackEscape

/-! ## Forms -/

/-- A pattern under some negations. -/
def Pattern.negate (p : Pattern) : Nat → Pattern
  | 0 => p
  | n + 1 => .negated (p.negate n)

/-- How a null test is written. -/
inductive NullTestForm where
  /-- As a comparison, for equality or not, perhaps with the null on the left. -/
  | comparison (equal flipped : Bool)
  /-- As a match with the null constant under some negations. -/
  | matching (negations : Nat)

namespace NullTestForm

/-- The operator that errors name. -/
def op : NullTestForm → String
  | .comparison true _ => "=="
  | .comparison false _ => "!="
  | .matching _ => "is"

/-- The test of a subject for a null constant. -/
def kind (subject constant : Expr) : NullTestForm → ExprKind
  | .comparison equal false => .binary (if equal then .eq else .ne) subject constant
  | .comparison equal true => .binary (if equal then .eq else .ne) constant subject
  | .matching n => .test subject ((Pattern.constant constant).negate n)

/-- Is a test of the form judged? -/
def Judged : NullTestForm → Prop
  | .comparison .. => True
  | .matching n => n ≤ 1

/-- The walk over the operands, with the pair of the subject. -/
def operands (env : Surroundings) (subject constant : Expr) : NullTestForm → Walk ScopePair
  | .comparison _ true => do
    discard (Walk.checkExpr env constant)
    Walk.checkExpr env subject
  | _ => do
    let pair ← Walk.checkExpr env subject
    discard (Walk.checkExpr env constant)
    return pair

end NullTestForm

/-! ## Verdicts -/

/-- Does a subject with the capability have no null to be tested for? -/
def Capability.refusesNull (c : Capability) : Bool := c.isStackOnly && (c.isByRefLike || c.isValue)

/-- How a subject with the capability is tested for null, if that takes more than a plain test. -/
def Capability.nullTest? (c : Capability) : Option NullTest :=
  if !c.isStackOnly || c.refusesNull then none
  else some (if c.isReference then .reference else .boxed)

namespace Verdict

/-- What a verdict reports. -/
def errors (span : Span) : Verdict → List EscapeError
  | .refused error => [⟨error, span⟩]
  | _ => []

/-- How a test is to be carried out. -/
def lowering : Verdict → Option NullTest
  | .lowered test => some test
  | _ => none

/-- Is the test accepted? -/
def accepts : Verdict → Bool
  | .refused _ => false
  | _ => true

end Verdict

namespace TypeEnv

variable (types : TypeEnv) (op : String) (subject : TypeRef)

/-- A null test is judged by the capability of its subject alone. -/
theorem nullTestVerdict_eq : types.nullTestVerdict op subject =
    if (types.capability subject).refusesNull then
      .refused (.operatorNotApplicable op subject.display)
    else (types.capability subject).nullTest?.elim .plain .lowered := by
  unfold nullTestVerdict Capability.nullTest? Capability.refusesNull
  generalize types.capability subject = cap
  dsimp only
  cases hstack : cap.isStackOnly
  · simp
  cases hnone : cap.isByRefLike || cap.isValue
  · cases hreference : cap.isReference <;> simp
  · simp

theorem accepts_nullTestVerdict :
    (types.nullTestVerdict op subject).accepts = !(types.capability subject).refusesNull := by
  rw [nullTestVerdict_eq]
  cases (types.capability subject).refusesNull
  · cases (types.capability subject).nullTest? <;> rfl
  · rfl

theorem lowering_nullTestVerdict :
    (types.nullTestVerdict op subject).lowering = (types.capability subject).nullTest? := by
  rw [nullTestVerdict_eq]
  cases h : (types.capability subject).refusesNull
  · cases (types.capability subject).nullTest? <;> rfl
  · rw [Capability.nullTest?, h, Bool.or_true]
    rfl

theorem errors_nullTestVerdict (span : Span) :
    (types.nullTestVerdict op subject).errors span =
      if (types.capability subject).refusesNull then
        [⟨.operatorNotApplicable op subject.display, span⟩]
      else [] := by
  rw [nullTestVerdict_eq]
  cases (types.capability subject).refusesNull
  · cases (types.capability subject).nullTest? <;> rfl
  · rfl

end TypeEnv

/-- How a null test is carried out once another one is recorded. -/
theorem Facts.nullTest?_recordNullTest (f : Facts) (id id' : NodeId) (test : NullTest) :
    (f.recordNullTest id test).nullTest? id' = if id' = id then some test else f.nullTest? id' :=
  Table.get?_set _ _ _ _

namespace Walk

variable {env : Surroundings} {s : WalkState}

theorem answer_settle (id : NodeId) (span : Span) (v : Verdict) (s : WalkState) :
    (settle id span v).answer s = v.accepts := by
  cases v <;> rfl

theorem errors_settle (id : NodeId) (span : Span) (v : Verdict) (s : WalkState) :
    ((settle id span v).after s).errors = s.errors ++ v.errors span := by
  cases v with
  | refused error => rfl
  | _ => exact (List.append_nil _).symm

theorem nullTest?_settle (id : NodeId) (span : Span) (v : Verdict) (s : WalkState) :
    ((settle id span v).after s).facts.nullTest? id = v.lowering.or (s.facts.nullTest? id) := by
  cases v with
  | lowered test => exact (Facts.nullTest?_recordNullTest _ _ _ _).trans (if_pos rfl)
  | _ => rfl

end Walk

/-! ## Null constants -/

namespace Walk

variable {env : Surroundings}

/-- Conversions record no null test. -/
theorem nullTests_convertTo (source target : TypeRef) (span : Span) (inner : ScopePair)
    (s : WalkState) :
    ((convertTo env source target span inner).after s).facts.nullTests = s.facts.nullTests := by
  unfold convertTo convertChecked
  rw [after_bind]
  split
  · rfl
  · rw [after_bind, answer_get, after_get, after_bind]
    -- A passed conversion and a refused one end alike.
    cases ((((checkShape env target span).after s).types env).conversionError source target) <;>
      rfl

/-- The walk over a null constant records no null test. -/
theorem nullTests_checkExpr_of_isNullLiteral : ∀ c : Expr, c.isNullLiteral = true →
    ∀ s : WalkState, ((checkExpr env c).after s).facts.nullTests = s.facts.nullTests
  | ⟨id, .literal .null, ty, span⟩, _, s => by
    cases h : s.refusesValue env ty with
    | true => rw [(run_checkExpr_refused h _ _ _).2]; rfl
    | false => rw [(run_checkExpr_form h _ _ _).2, checkForm]; rfl
  | ⟨id, .convert operand _, ty, span⟩, hc, s => by
    rw [Expr.isNullLiteral] at hc
    cases h : s.refusesValue env ty with
    | true => rw [(run_checkExpr_refused h _ _ _).2]; rfl
    | false =>
      rw [(run_checkExpr_form h _ _ _).2, checkForm_convert, after_bind]
      exact (nullTests_convertTo ..).trans (nullTests_checkExpr_of_isNullLiteral operand hc s)

/-- A pattern under negations is walked as it is. -/
theorem checkPattern_negate (input : ScopePair) (inputTy : TypeRef) (span : Span) (p : Pattern)
    (n : Nat) :
    checkPattern env input inputTy span (p.negate n) = checkPattern env input inputTy span p := by
  induction n with
  | zero => rfl
  | succ n ih => rw [Pattern.negate, checkPattern, ih]

end Walk

/-- The expression is accepted from a state on: later walks over it yield a pair and report
nothing. -/
def WalkState.Accepts (env : Surroundings) (s : WalkState) (e : Expr) : Prop :=
  ∀ t, s.Progress env t → ((Walk.checkExpr env e).answer t).isInvalid = false ∧
    ((Walk.checkExpr env e).after t).errors = t.errors

/-! ## Later states -/

namespace WalkState.Progress

variable {env : Surroundings} {s t : WalkState}

/-- Later states say the same of the types in scope. -/
theorem capability_eq (h : s.Progress env t) (hs : s.generics.Filed s.tables.caps) :
    (t.types env).capability = (s.types env).capability := by
  simp only [WalkState.types, h.generics]
  exact (TypeEnv.capability_of_filed env.runtime hs h.before.within).symm

/-- The same values are refused in later states. -/
theorem refusesValue_eq (h : s.Progress env t) (hs : s.generics.Filed s.tables.caps)
    (ty : TypeRef) : t.refusesValue env ty = s.refusesValue env ty := by
  obtain ⟨infos, hctx⟩ := h.context
  unfold WalkState.refusesValue
  rw [TypeEnv.stackOnly_congr (h.capability_eq hs), hctx, Context.inExpressionTree_declareAll]

end WalkState.Progress

/-- The null literal is accepted wherever its type is. -/
theorem WalkState.accepts_null {env : Surroundings} {s : WalkState}
    (hs : s.generics.Filed s.tables.caps) {ty : TypeRef} (h : s.refusesValue env ty = false)
    (id : NodeId) (span : Span) : s.Accepts env ⟨id, .literal .null, ty, span⟩ := by
  intro t ht
  have hform := Walk.run_checkExpr_form ((ht.refusesValue_eq hs ty).trans h) id (.literal .null) span
  rw [Walk.checkForm] at hform
  rw [hform.1, hform.2]
  exact ⟨rfl, rfl⟩

/-! ## Constants in place of null -/

/-- The expression with another constant in place of null, if it is null. -/
def Expr.replaceNull (value : Literal) : Expr → Expr
  | ⟨id, .literal .null, ty, span⟩ => ⟨id, .literal value, ty, span⟩
  | ⟨id, .convert operand explicit, ty, span⟩ =>
    ⟨id, .convert (operand.replaceNull value) explicit, ty, span⟩
  | e => e

/-- What is not null stays as it is. -/
theorem Expr.replaceNull_of_not_isNullLiteral (value : Literal) {e : Expr}
    (h : e.isNullLiteral = false) : e.replaceNull value = e := by
  fun_induction Expr.replaceNull value e with
  | case1 => exact absurd h (by simp [Expr.isNullLiteral])
  | case2 id operand explicit ty span ih => rw [ih (by rwa [Expr.isNullLiteral] at h)]
  | case3 => rfl

theorem Expr.ty_replaceNull (value : Literal) (e : Expr) : (e.replaceNull value).ty = e.ty := by
  unfold Expr.replaceNull
  split <;> rfl

namespace Pattern

mutual

/-- The pattern with another constant wherever it compares with null, at every depth. -/
def replaceNull (value : Literal) : Pattern → Pattern
  | .constant e => .constant (e.replaceNull value)
  | .property ty subpatterns => .property ty (replaceNullIn value subpatterns)
  | .positional deconstruct subpatterns componentTys =>
    .positional deconstruct (replaceNulls value subpatterns) componentTys
  | .negated inner => .negated (replaceNull value inner)
  | .discard => .discard
  | .typeTest ty => .typeTest ty
  | .declaration name ty span => .declaration name ty span

/-- The same for the entries of a property pattern. -/
def replaceNullIn (value : Literal) : List SubPattern → List SubPattern
  | [] => []
  | ⟨access, ty, pattern, span⟩ :: rest =>
    ⟨access, ty, replaceNull value pattern, span⟩ :: replaceNullIn value rest

/-- The same for the parts of a positional pattern. -/
def replaceNulls (value : Literal) : List Pattern → List Pattern
  | [] => []
  | pattern :: rest => replaceNull value pattern :: replaceNulls value rest

end

end Pattern

/-- The verdict on a match that does not compare with null at its top is the same then. -/
theorem TypeEnv.testVerdict_replaceNull (types : TypeEnv) (subject : TypeRef) {p : Pattern}
    (hp : ∀ k, comparedConstant p = some k → k.isNullLiteral = false) (value : Literal) :
    types.testVerdict subject (p.replaceNull value) = types.testVerdict subject p := by
  unfold testVerdict
  cases p with
  | constant k =>
    rw [Pattern.replaceNull, Expr.replaceNull_of_not_isNullLiteral value (hp k rfl)]
  | negated inner =>
    cases inner with
    | constant k =>
      rw [Pattern.replaceNull, Pattern.replaceNull,
        Expr.replaceNull_of_not_isNullLiteral value (hp k rfl)]
    | _ => simp only [Pattern.replaceNull, comparedConstant]
  | _ => simp only [Pattern.replaceNull, comparedConstant]

namespace Walk

variable {env : Surroundings}

/-- The walk over an expression does not look at the value of a constant. -/
theorem checkExpr_replaceNull (value : Literal) (e : Expr) :
    checkExpr env (e.replaceNull value) = checkExpr env e := by
  fun_induction Expr.replaceNull value e with
  | case1 id ty span => rw [checkExpr, checkExpr, checkForm, checkForm]
  | case2 id operand explicit ty span ih =>
    rw [checkExpr, checkExpr, checkForm_convert, checkForm_convert, ih, Expr.ty_replaceNull]
  | case3 => rfl

mutual

/-- The walk over a pattern takes no notice of null: with another constant in its place at every depth,
it is the same walk. -/
theorem checkPattern_replaceNull (value : Literal) (input : ScopePair) (inputTy : TypeRef)
    (span : Span) : ∀ p : Pattern,
    checkPattern env input inputTy span (p.replaceNull value) =
      checkPattern env input inputTy span p
  | .constant e => by
    rw [Pattern.replaceNull, checkPattern, checkPattern, checkExpr_replaceNull]
  | .property ty subpatterns => by
    rw [Pattern.replaceNull, checkPattern, checkPattern, checkSubPatterns_replaceNull]
  | .positional deconstruct subpatterns componentTys => by
    rw [Pattern.replaceNull, checkPattern, checkPattern]
    exact congrArg _ (funext fun outcome => checkComponents_replaceNull value outcome span _ _)
  | .negated inner => by
    rw [Pattern.replaceNull, checkPattern, checkPattern, checkPattern_replaceNull]
  | .discard | .typeTest _ | .declaration .. => by rw [Pattern.replaceNull]

theorem checkSubPatterns_replaceNull (value : Literal) (input : ScopePair) (receiverTy : TypeRef) :
    ∀ subpatterns : List SubPattern,
    checkSubPatterns env input receiverTy (Pattern.replaceNullIn value subpatterns) =
      checkSubPatterns env input receiverTy subpatterns
  | [] => by rw [Pattern.replaceNullIn]
  | ⟨access, ty, pattern, span⟩ :: rest => by
    rw [Pattern.replaceNullIn, checkSubPatterns, checkSubPatterns]
    simp only [checkPattern_replaceNull value _ ty span pattern,
      checkSubPatterns_replaceNull value input receiverTy rest]

theorem checkComponents_replaceNull (value : Literal) (outcome : Option Outcome) (span : Span) :
    ∀ (patterns : List Pattern) (tys : List TypeRef),
    checkComponents env outcome span (Pattern.replaceNulls value patterns) tys =
      checkComponents env outcome span patterns tys
  | [], _ => by rw [Pattern.replaceNulls]
  | _ :: _, [] => by simp only [Pattern.replaceNulls, checkComponents]
  | pattern :: rest, ty :: tys => by
    rw [Pattern.replaceNulls, checkComponents, checkComponents]
    simp only [checkPattern_replaceNull value _ ty span pattern,
      checkComponents_replaceNull value outcome span rest tys]

end

/-! ## How null tests are judged -/

variable {s : WalkState} {x c : Expr}

/-- A comparison with null is settled once its operands are walked. -/
theorem run_comparison (hnull : c.isNullLiteral = true) (hsubject : x.isNullLiteral = false)
    (hc : s.Accepts env c) (hx : s.Progress env ((checkExpr env x).after s))
    (equal flipped : Bool) (id : NodeId) (ty : TypeRef) (span : Span) :
    let form : NullTestForm := .comparison equal flipped
    let u := (form.operands env x c).after s
    let verdict := (u.types env).nullTestVerdict form.op x.ty
    ((form.operands env x c).answer s).isInvalid = false →
    (checkForm env id ty span (form.kind x c)).after s = (settle id span verdict).after u ∧
      (checkForm env id ty span (form.kind x c)).answer s = temporaryIf verdict.accepts := by
  intro form u verdict hvalid
  have hop : ∀ types : TypeEnv, ∀ left right : Expr,
      types.binaryVerdict (if equal then .eq else .ne) left right =
        types.equalityVerdict form.op left right := by
    cases equal <;> exact fun _ _ _ => rfl
  cases flipped with
  | false =>
    have hcv : ((checkExpr env c).answer ((checkExpr env x).after s)).isInvalid = false :=
      (hc _ hx).1
    have hxv : ((checkExpr env x).answer s).isInvalid = false := hvalid
    have hverdict : (u.types env).binaryVerdict (if equal then .eq else .ne) x c = verdict := by
      rw [hop, TypeEnv.equalityVerdict, if_pos hnull]
    rw [NullTestForm.kind, checkForm_binary, after_bind, after_bind, answer_bind, answer_bind,
      compare, hcv, hxv]
    refine ⟨congrArg (fun v => (settle id span v).after u) hverdict, ?_⟩
    rw [← answer_settle id span verdict u, ← hverdict]
    rfl
  | true =>
    have hcv : ((checkExpr env c).answer s).isInvalid = false := (hc _ (.refl env s)).1
    have hxv : ((checkExpr env x).answer ((checkExpr env c).after s)).isInvalid = false := hvalid
    have hverdict : (u.types env).binaryVerdict (if equal then .eq else .ne) c x = verdict := by
      rw [hop, TypeEnv.equalityVerdict, if_neg (by simp [hsubject]), if_pos hnull]
    rw [NullTestForm.kind, checkForm_binary, after_bind, after_bind, answer_bind, answer_bind,
      compare, hcv, hxv]
    refine ⟨congrArg (fun v => (settle id span v).after u) hverdict, ?_⟩
    rw [← answer_settle id span verdict u, ← hverdict]
    rfl

/-- A match with null under at most one negation is settled once the subject is walked; if it is
accepted, the constant is walked then. -/
theorem run_matching (hnull : c.isNullLiteral = true) {n : Nat} (hn : n ≤ 1) (id : NodeId)
    (ty : TypeRef) (span : Span) :
    let form : NullTestForm := .matching n
    let w := (checkExpr env x).after s
    let verdict := (w.types env).nullTestVerdict form.op x.ty
    let t := (settle id span verdict).after w
    (checkForm env id ty span (form.kind x c)).after s =
        (if verdict.accepts then (checkExpr env c).after t else t) ∧
      (checkForm env id ty span (form.kind x c)).answer s = temporaryIf verdict.accepts := by
  intro form w verdict t
  have hverdict : (w.types env).testVerdict x.ty ((Pattern.constant c).negate n) = verdict := by
    have hconstant : TypeEnv.comparedConstant ((Pattern.constant c).negate n) = some c := by
      obtain rfl | rfl : n = 0 ∨ n = 1 := by omega
      all_goals rfl
    rw [TypeEnv.testVerdict, hconstant]
    exact if_pos hnull
  have hsettle : settleTest env id span x.ty ((Pattern.constant c).negate n) =
      (get >>= fun s : WalkState => settle id span
        ((s.types env).testVerdict x.ty ((Pattern.constant c).negate n))) := rfl
  have hanswer : (settleTest env id span x.ty ((Pattern.constant c).negate n)).answer w =
      verdict.accepts := by
    rw [hsettle, answer_bind, answer_get, after_get, hverdict, answer_settle]
  have hafter : (settleTest env id span x.ty ((Pattern.constant c).negate n)).after w = t := by
    rw [hsettle, after_bind, answer_get, after_get, hverdict]
  rw [NullTestForm.kind, checkForm_test, after_bind, after_bind, answer_bind, answer_bind, hanswer,
    hafter, checkPattern_negate, checkPattern]
  cases verdict.accepts <;> exact ⟨rfl, rfl⟩

/-- A match with null under more negations is walked like a match with any other pattern. -/
theorem run_matching_deep {n : Nat} (hn : ¬ n ≤ 1) (id : NodeId) (ty : TypeRef) (span : Span) :
    let form : NullTestForm := .matching n
    (checkForm env id ty span (form.kind x c)).after s =
        (form.operands env x c).after s ∧
      (checkForm env id ty span (form.kind x c)).answer s = .temporary := by
  intro form
  obtain ⟨k, rfl⟩ : ∃ k, n = k + 2 := ⟨n - 2, by omega⟩
  have hsettle : settleTest env id span x.ty ((Pattern.constant c).negate (k + 2)) =
      (pure true : Walk Bool) := rfl
  rw [NullTestForm.kind, checkForm_test, after_bind, after_bind, answer_bind, answer_bind, hsettle,
    checkPattern_negate, checkPattern]
  exact ⟨rfl, rfl⟩

/-- The operands of a null test are walked at the same depth. -/
theorem progress_operands {a : Point} (hs : s.Placed env)
    (hx : Site.ofExpr a x ⊆ env.member.sites) (hc : Site.ofExpr a c ⊆ env.member.sites) :
    ∀ form : NullTestForm, s.Progress env ((form.operands env x c).after s) := by
  have hproper {e : Expr} (he : Site.ofExpr a e ⊆ env.member.sites) : (checkExpr env e).Proper env :=
    (Traces.checkExpr (a := a) e).proper he
  have hboth {e e' : Expr} (he : Site.ofExpr a e ⊆ env.member.sites)
      (he' : Site.ofExpr a e' ⊆ env.member.sites) :
      s.Progress env ((checkExpr env e').after ((checkExpr env e).after s)) :=
    ((hproper he).progress s hs).trans
      ((hproper he').progress _ (((hproper he).progress s hs).placed hs))
  rintro (⟨equal, _ | _⟩ | n)
  exacts [hboth hx hc, hboth hc hx, hboth hx hc]

/-- **Null tests by form and depth.** Wherever the walk over a body has come to, a subject that is
accepted is tested for an accepted null constant. As a comparison in either direction, or as a match
under at most one negation, the test is refused or carried out as the subject's capability says, which
is the same in all these forms. Under more negations it is neither refused nor carried out in a
certain way; and whatever pattern does not compare with null at its top, the walk over the test is the
same with another constant in place of every null in the pattern.

**Proof sketch.** The operands of a comparison are walked before the verdict, the constant of a match
after it; but walks at the same depth leave the capabilities of the types in scope as they are, and the
walk over a null constant records no null test. Patterns are walked for their variables, and constants
by their types. -/
theorem null_tests_judged {a : Point} (hs : s.Placed env) (hfiled : s.generics.Filed s.tables.caps)
    (hx : Site.ofExpr a x ⊆ env.member.sites) (hsites : Site.ofExpr a c ⊆ env.member.sites)
    (hnull : c.isNullLiteral = true) (hc : s.Accepts env c) (hsubject : x.isNullLiteral = false)
    {ty : TypeRef} (hty : s.refusesValue env ty = false) (id : NodeId) (span : Span) :
    (∀ form : NullTestForm, ((form.operands env x c).answer s).isInvalid = false →
      let walk := checkExpr env ⟨id, form.kind x c, ty, span⟩
      let u := (form.operands env x c).after s
      let cap := (s.types env).capability x.ty
      (form.Judged →
        (walk.after s).errors = u.errors ++
          (if cap.refusesNull then [⟨.operatorNotApplicable form.op x.ty.display, span⟩] else []) ∧
        (walk.after s).facts.nullTest? id = cap.nullTest?.or (u.facts.nullTest? id) ∧
        walk.answer s = temporaryIf (!cap.refusesNull)) ∧
      (¬ form.Judged →
        (walk.after s).errors = u.errors ∧
        (walk.after s).facts.nullTest? id = u.facts.nullTest? id ∧
        walk.answer s = .temporary)) ∧
    (∀ p : Pattern,
      (∀ k, TypeEnv.comparedConstant p = some k → k.isNullLiteral = false) → ∀ value,
      checkExpr env ⟨id, .test x (p.replaceNull value), ty, span⟩ =
        checkExpr env ⟨id, .test x p, ty, span⟩) := by
  have hprogress := progress_operands hs hx hsites
  have hw : s.Progress env ((checkExpr env x).after s) :=
    ((Traces.checkExpr (a := a) x).proper hx).progress s hs
  have hverdict {t : WalkState} (ht : s.Progress env t) (op : String) :
      (t.types env).nullTestVerdict op x.ty = (s.types env).nullTestVerdict op x.ty := by
    rw [TypeEnv.nullTestVerdict_congr (ht.capability_eq hfiled)]
  refine ⟨fun form hvalid => ?_, fun p hp value => ?_⟩
  · intro walk u cap
    obtain ⟨hanswer, hafter⟩ := run_checkExpr_form hty id (form.kind x c) span
    have herrors : (walk.after s).errors =
        ((checkForm env id ty span (form.kind x c)).after s).errors := by rw [hafter]
    have htest : (walk.after s).facts.nullTest? id =
        ((checkForm env id ty span (form.kind x c)).after s).facts.nullTest? id := by
      rw [hafter]; rfl
    rw [herrors, htest, hanswer, ← TypeEnv.errors_nullTestVerdict,
      ← TypeEnv.accepts_nullTestVerdict _ form.op, ← TypeEnv.lowering_nullTestVerdict _ form.op]
    refine ⟨fun hjudged => ?_, fun hdeep => ?_⟩
    · cases form with
      | comparison equal flipped =>
        obtain ⟨hrun, hpair⟩ :=
          run_comparison hnull hsubject hc hw equal flipped id ty span hvalid
        rw [hverdict (hprogress _)] at hrun hpair
        rw [hrun, hpair]
        exact ⟨errors_settle .., nullTest?_settle .., rfl⟩
      | matching n =>
        obtain ⟨hrun, hpair⟩ := run_matching (x := x) (s := s) hnull hjudged id ty span
        rw [hverdict hw] at hrun hpair
        rw [hrun, hpair]
        -- The constant adds nothing, before the verdict or after it.
        set v := (s.types env).nullTestVerdict (NullTestForm.matching n).op x.ty
        set w := (checkExpr env x).after s
        have hcovers : Covers env.inspection a False [] _ (settle id span v) :=
          Covers.settle id span v
        have hsettle : (settle id span v).Proper env := hcovers.proper (List.nil_subset _)
        have ht : s.Progress env ((settle id span v).after w) :=
          hw.trans (hsettle.progress w (hw.placed hs))
        have hu : u.errors = w.errors := (hc w hw).2
        have hu' : u.facts.nullTests = w.facts.nullTests :=
          nullTests_checkExpr_of_isNullLiteral c hnull w
        rw [hu, Facts.nullTest?, Facts.nullTest?, hu']
        refine ⟨?_, ?_, rfl⟩
        · refine Eq.trans ?_ (errors_settle id span v w)
          split
          · exact (hc _ ht).2
          · rfl
        · refine Eq.trans ?_ (nullTest?_settle id span v w)
          split
          · rw [nullTests_checkExpr_of_isNullLiteral c hnull]; rfl
          · rfl
    · cases form with
      | comparison equal flipped => exact absurd trivial hdeep
      | matching n =>
        obtain ⟨hrun, hpair⟩ := run_matching_deep (x := x) (c := c) (s := s) hdeep id ty span
        rw [hrun, hpair]
        exact ⟨rfl, rfl, rfl⟩
  · have hsettle : settleTest env id span x.ty (p.replaceNull value) =
        settleTest env id span x.ty p := by
      unfold settleTest
      simp only [TypeEnv.testVerdict_replaceNull _ _ hp]
    rw [checkExpr, checkExpr, checkForm_test, checkForm_test, hsettle]
    simp only [checkPattern_replaceNull]

end Walk

/-! ## Null tests that are overlooked -/

namespace Bins

open Slots

/-- The type of bins, which hold a slot. -/
def binTy : TypeRef := .named "Bin" []

/-- Takes the slot out of a bin. -/
def deconstruct : FnDecl :=
  ⟨3, "Deconstruct", .method, default, [], [slotParam "slot" .out false], .nothing, [], none, none,
    some [], .zero⟩

/-- Bins hold a slot. -/
def bin : TypeDecl :=
  ⟨2, "Bin", .refStruct, false, false, [], [], [],
    [⟨"slot", slotTy, false, false, false, false, .zero⟩], [deconstruct], .zero⟩

/-- The null constant. -/
def null : Expr := ⟨10, .literal .null, .object, .zero⟩

/-- The slot, the bin and the item that are tested. -/
def slot : Expr := slotVar 9 "slot"

@[inherit_doc slot]
def wholeBin : Expr := ⟨9, .var "bin", binTy, .zero⟩

@[inherit_doc slot]
def item : Expr := ⟨9, .var "item", .param "T", .zero⟩

/-- A test. -/
def test (kind : ExprKind) : Expr := ⟨8, kind, .bool, .zero⟩

/-- A program with slots, bins and a function that returns the outcome of a test of its parameters. -/
def programOf (typeParams : List TypeParam) (params : List Param) (kind : ExprKind) : Program :=
  let look := fn 6 "Look" params (.byValue .bool) [⟨7, .ret (some (test kind)), .zero⟩]
  ⟨[⟨1, "Slot", .refStruct, false, false, [], [], [], [], [], .zero⟩, bin,
    ⟨5, "Bins", .classType, false, false, typeParams, [], [], [], [look], .zero⟩]⟩

/-- A run over a test of a slot or a bin. -/
def run (kind : ExprKind) : Analysis :=
  (programOf [] [slotParam "slot" .none false, ⟨"bin", binTy, .none, false, [], .zero⟩]
    kind).analyze {}

/-- A run over a test of an item that may be of any type. -/
def runAny (kind : ExprKind) : Analysis :=
  (programOf [⟨"T", [⟨.allowsRefStruct, .zero⟩], .zero⟩]
    [⟨"item", .param "T", .none, false, [], .zero⟩] kind).analyze {}

/-- The slot of the bin is tested for null within a pattern. -/
def inProperty : Pattern := .property none [⟨.field binTy "slot", slotTy, .constant null, .zero⟩]

@[inherit_doc inProperty]
def inPositional : Pattern :=
  .positional ⟨binTy, "Deconstruct"⟩ [.constant null] [slotTy]

/-- A slot has no null, and is not tested for it by comparing or matching with it, unless the match is
under two negations or more. Nor is the slot in a bin, unless it is by a pattern. How an item of any
type is tested is recorded, unless it is under two negations or more. -/
theorem null_tests_overlooked :
    (∀ form ∈ [NullTestForm.comparison true false, .comparison true true, .comparison false false,
        .matching 0, .matching 1],
      (run (form.kind slot null)).escapeErrors = [⟨.operatorNotApplicable form.op "Slot", .zero⟩]) ∧
    (∀ form ∈ [NullTestForm.matching 2, .matching 3], (run (form.kind slot null)).isOk = true) ∧
    (run (.test wholeBin inProperty)).isOk = true ∧
    (run (.test wholeBin inPositional)).isOk = true ∧
    (runAny ((NullTestForm.matching 1).kind item null)).facts.nullTest? 8 = some .boxed ∧
    (runAny ((NullTestForm.matching 2).kind item null)).facts.nullTest? 8 = none := by
  refine ⟨by decide +kernel, by decide +kernel, by decide +kernel, ?_, ?_, ?_⟩ <;> cbv

/-- A program that compares a slot with null. -/
def comparing : Program :=
  programOf [] [slotParam "slot" .none false] ((NullTestForm.comparison true false).kind slot null)

/-- The function that does, in its class. -/
def member : Member :=
  let look := fn 6 "Look" [slotParam "slot" .none false] (.byValue .bool)
    [⟨7, .ret (some (test ((NullTestForm.comparison true false).kind slot null))), .zero⟩]
  ⟨⟨5, "Bins", .classType, false, false, [], [], [], [], [look], .zero⟩, look⟩

/-- The state in which the body is entered. -/
def start : WalkState :=
  comparing.bodyEntry true (comparing.declaredTables true) member (member.decl.body.getD [])

/-- Where the body is entered, a match of the slot with what is not null is refused as well. -/
theorem null_tests_judged_slot :
    let env : Surroundings := ⟨comparing, member, true⟩
    let a : Point := .ofMember member (member.decl.body.getD [])
    start.Placed env ∧ start.generics.Filed start.tables.caps ∧
      Site.ofExpr a slot ⊆ env.member.sites ∧ Site.ofExpr a null ⊆ env.member.sites ∧
      null.isNullLiteral = true ∧ start.Accepts env null ∧ slot.isNullLiteral = false ∧
      start.refusesValue env .bool = false ∧
      ((Walk.checkExpr env (test ((NullTestForm.matching 1).kind slot null))).after start).errors =
        [⟨.operatorNotApplicable "is" "Slot", .zero⟩] := by
  intro env a
  have hplaced : start.Placed env := Program.placed_bodyEntry comparing true _ rfl
  have hfiled : start.generics.Filed start.tables.caps := by
    rintro frame (_ | ⟨_, _ | ⟨_, ⟨⟩⟩⟩) name ⟨⟩
  have hslot : Site.ofExpr a slot ⊆ env.member.sites := fun y hy =>
    List.mem_cons_of_mem _ (List.mem_append_left [] (List.mem_cons_of_mem _
      (List.mem_append_left (Site.ofExpr a null) hy)))
  have hnull : Site.ofExpr a null ⊆ env.member.sites := fun y hy =>
    List.mem_cons_of_mem _ (List.mem_append_left [] (List.mem_cons_of_mem _
      (List.mem_append_right (Site.ofExpr a slot) hy)))
  have haccepts : start.Accepts env null :=
    WalkState.accepts_null hfiled (by decide +kernel) 10 .zero
  have hbool : start.refusesValue env .bool = false := by decide +kernel
  obtain ⟨hforms, _⟩ :=
    Walk.null_tests_judged hplaced hfiled hslot hnull rfl haccepts rfl hbool 8 .zero
  obtain ⟨herrors, _⟩ := (hforms (.matching 1) (by decide +kernel)).1 (Nat.le_refl 1)
  refine ⟨hplaced, hfiled, hslot, hnull, rfl, haccepts, rfl, hbool, ?_⟩
  rw [test, herrors]
  decide +kernel

end Bins

end StackEscape
