import StackEscape.Proofs.Accesses

/-!
# Patterns and the ways into a value

A variable of a pattern stands for a value inside of the one that is matched. The way to it goes
through fields, properties and what `Deconstruct` methods take out. What is found at its end can be
said without the pattern, and without the state in which the pattern arrives there.

## Main definitions

* `StackEscape.Step`, `Leaf` — a way into a value, and a variable of a pattern at the end of it.
* `StackEscape.Pattern.IsPlain` — patterns that take values apart and do not test them.
* `StackEscape.Pattern.leaves`, `refs` — the variables of a pattern, and the members it refers to.
* `StackEscape.Walk.stepPair`, `pathPair` — the pair of what is at the end of a way.

## Main results

* `StackEscape.Walk.run_accessMember`, `run_deconstructInput` — a pattern goes one step.
* `StackEscape.Walk.run_checkPattern` — a pattern declares its variables, each with the pair of its
  way.

## Implementation notes

All parts of a pattern are compared with the state in which it is entered. In between only contracts
are filed and variables declared, which is what `StackEscape.WalkState.Onward` allows; so the order
in which a pattern goes its ways does not matter.
-/

set_option autoImplicit false

namespace StackEscape

/-! ## Ways into a value -/

/-- A step from a value to one inside of it. -/
inductive Step where
  /-- To a field or property of some type. -/
  | member (access : MemberAccess) (ty : TypeRef)
  /-- To the component of some type among those that a `Deconstruct` method takes out. -/
  | component (deconstruct : MemberRef) (before : List TypeRef) (ty : TypeRef)
      (after : List TypeRef)

namespace Step

/-- The type of what the step leads to. -/
def ty : Step → TypeRef
  | .member _ ty | .component _ _ ty _ => ty

/-- The member that is called in the step. -/
def ref? : Step → Option MemberRef
  | .member (.field _ _) _ => none
  | .member (.property getter) _ => some getter
  | .component deconstruct _ _ _ => some deconstruct

end Step

/-- A variable of a pattern. -/
structure Leaf where
  /-- The way to its value, from the matched one. -/
  steps : List Step
  /-- Its name. -/
  name : String
  /-- Its type. -/
  ty : TypeRef
  /-- Where it is declared. -/
  span : Span

/-- The same variable seen from one step further outside. -/
def Leaf.under (step : Step) (leaf : Leaf) : Leaf := { leaf with steps := step :: leaf.steps }

namespace Pattern

mutual

/-- The pattern takes values apart and binds or ignores them, and does not test them. -/
def IsPlain : Pattern → Prop
  | .discard | .declaration _ _ _ => True
  | .property none subpatterns => SubPatternsPlain subpatterns
  | .positional _ subpatterns _ => ComponentsPlain subpatterns
  | .property (some _) _ | .typeTest _ | .constant _ | .negated _ => False

/-- The entries of a property pattern do. -/
def SubPatternsPlain : List SubPattern → Prop
  | [] => True
  | ⟨_, _, pattern, _⟩ :: rest => pattern.IsPlain ∧ SubPatternsPlain rest

/-- The parts of a positional pattern do. -/
def ComponentsPlain : List Pattern → Prop
  | [] => True
  | pattern :: rest => pattern.IsPlain ∧ ComponentsPlain rest

end

mutual

/-- The variables of a pattern, in the order in which they are declared. -/
def leaves : Pattern → List Leaf
  | .declaration name ty span => [⟨[], name, ty, span⟩]
  | .property _ subpatterns => leavesOfSubPatterns subpatterns
  | .positional deconstruct subpatterns tys => leavesOfComponents deconstruct [] subpatterns tys
  | .discard | .typeTest _ | .constant _ => []
  | .negated inner => inner.leaves

/-- The variables in the entries of a property pattern. -/
def leavesOfSubPatterns : List SubPattern → List Leaf
  | [] => []
  | ⟨access, ty, pattern, _⟩ :: rest =>
    pattern.leaves.map (.under (.member access ty)) ++ leavesOfSubPatterns rest

/-- The variables in parts of a positional pattern, by the components before them and their own. -/
def leavesOfComponents (deconstruct : MemberRef) (before : List TypeRef) :
    List Pattern → List TypeRef → List Leaf
  | pattern :: rest, ty :: tys =>
    pattern.leaves.map (.under (.component deconstruct before ty tys)) ++
      leavesOfComponents deconstruct (before ++ [ty]) rest tys
  | _, _ => []

end

mutual

/-- The members that a pattern refers to. -/
def refs : Pattern → List MemberRef
  | .property _ subpatterns => refsOfSubPatterns subpatterns
  | .positional deconstruct subpatterns _ => deconstruct :: refsOfComponents subpatterns
  | .discard | .declaration _ _ _ | .typeTest _ | .constant _ => []
  | .negated inner => inner.refs

/-- The members to which the entries of a property pattern refer. -/
def refsOfSubPatterns : List SubPattern → List MemberRef
  | [] => []
  | ⟨.field _ _, _, pattern, _⟩ :: rest => pattern.refs ++ refsOfSubPatterns rest
  | ⟨.property getter, _, pattern, _⟩ :: rest =>
    getter :: (pattern.refs ++ refsOfSubPatterns rest)

/-- The members to which the parts of a positional pattern refer. -/
def refsOfComponents : List Pattern → List MemberRef
  | [] => []
  | pattern :: rest => pattern.refs ++ refsOfComponents rest

end

mutual

/-- A pattern refers to the members on the way to its variables. -/
theorem mem_refs : (p : Pattern) → ∀ leaf ∈ p.leaves, ∀ step ∈ leaf.steps, ∀ r ∈ step.ref?,
    r ∈ p.refs
  | .discard, _, hleaf | .typeTest _, _, hleaf | .constant _, _, hleaf => by
    simp [leaves] at hleaf
  | .declaration name ty span, leaf, hleaf => by
    rw [leaves, List.mem_singleton] at hleaf
    subst hleaf
    simp
  | .property _ subpatterns, leaf, hleaf => by
    rw [leaves] at hleaf
    rw [refs]
    exact mem_refsOfSubPatterns subpatterns leaf hleaf
  | .positional deconstruct subpatterns tys, leaf, hleaf => by
    rw [leaves] at hleaf
    rw [refs]
    exact mem_refsOfComponents deconstruct subpatterns [] tys leaf hleaf
  | .negated inner, leaf, hleaf => by
    rw [leaves] at hleaf
    rw [refs]
    exact mem_refs inner leaf hleaf

/-- So do the entries of a property pattern. -/
theorem mem_refsOfSubPatterns : (subpatterns : List SubPattern) →
    ∀ leaf ∈ leavesOfSubPatterns subpatterns, ∀ step ∈ leaf.steps, ∀ r ∈ step.ref?,
      r ∈ refsOfSubPatterns subpatterns
  | [], _, hleaf => by simp [leavesOfSubPatterns] at hleaf
  | ⟨access, ty, pattern, span⟩ :: rest, leaf, hleaf => by
    rw [leavesOfSubPatterns, List.mem_append] at hleaf
    intro step hstep r hr
    rcases hleaf with hleaf | hleaf
    · obtain ⟨inner, hinner, rfl⟩ := List.mem_map.1 hleaf
      rcases List.mem_cons.1 hstep with rfl | hstep
      · cases access with
        | field owner name => cases hr
        | property getter =>
          obtain rfl := Option.mem_some_iff.1 hr
          simp [refsOfSubPatterns]
      · have h := mem_refs pattern inner hinner step hstep r hr
        cases access <;> simp [refsOfSubPatterns, h]
    · have h := mem_refsOfSubPatterns rest leaf hleaf step hstep r hr
      cases access <;> simp [refsOfSubPatterns, h]

/-- So do the parts of a positional pattern. -/
theorem mem_refsOfComponents (deconstruct : MemberRef) : (subpatterns : List Pattern) →
    (before tys : List TypeRef) → ∀ leaf ∈ leavesOfComponents deconstruct before subpatterns tys,
    ∀ step ∈ leaf.steps, ∀ r ∈ step.ref?, r ∈ deconstruct :: refsOfComponents subpatterns
  | [], _, _, _, hleaf => by simp [leavesOfComponents] at hleaf
  | _ :: _, _, [], _, hleaf => by simp [leavesOfComponents] at hleaf
  | pattern :: rest, before, ty :: tys, leaf, hleaf => by
    rw [leavesOfComponents, List.mem_append] at hleaf
    rw [refsOfComponents]
    intro step hstep r hr
    rcases hleaf with hleaf | hleaf
    · obtain ⟨inner, hinner, rfl⟩ := List.mem_map.1 hleaf
      rcases List.mem_cons.1 hstep with rfl | hstep
      · obtain rfl := Option.mem_some_iff.1 hr
        exact List.mem_cons_self
      · have h := mem_refs pattern inner hinner step hstep r hr
        simp [h]
    · have h := mem_refsOfComponents deconstruct rest (before ++ [ty]) tys leaf hleaf step hstep r
        hr
      rcases List.mem_cons.1 h with rfl | h <;> simp [*]

end

/-- A pattern that does not test anything does not compare with a constant. -/
theorem IsPlain.comparedConstant {p : Pattern} (h : p.IsPlain) :
    TypeEnv.comparedConstant p = none := by
  cases p with
  | constant e => exact h.elim
  | negated inner => exact h.elim
  | _ => rfl

end Pattern

/-! ## What is at the end of a way -/

namespace Walk

variable {env : Surroundings} {rs : List MemberRef} {s t : WalkState}

/-- A value that is looked into. -/
def scrutinee (s : WalkState) (env : Surroundings) (input : ScopePair) (ty : TypeRef) : Operand :=
  .temporary "scrutinee" input ((s.types env).stackOnly ty) .zero

/-- Components of some types, as operands of the call that takes them out. -/
def componentOuts (s : WalkState) (env : Surroundings) (tys : List TypeRef) (span : Span) :
    List Operand :=
  tys.map fun ty => ⟨none, "component", .confined, (s.types env).stackOnly ty, .out, true, span⟩

/-- What a call that takes components of some types out of a value yields. -/
def takenApart (s : WalkState) (env : Surroundings) (deconstruct : MemberRef)
    (tys : List TypeRef) (input : ScopePair) (inputTy : TypeRef) : Option Outcome :=
  (s.contract? env deconstruct).map fun c => c.outcome (some (scrutinee s env input inputTy))
    (componentOuts s env tys .zero) ((s.types env).stackOnly .void)

/-- Where the value and its components are has no influence. -/
theorem receiver_congr (s : WalkState) (env : Surroundings) (input : ScopePair) (ty : TypeRef)
    (span : Span) :
    (some (Operand.temporary "scrutinee" input ((s.types env).stackOnly ty) span)).map
      Operand.core = (some (scrutinee s env input ty)).map Operand.core :=
  rfl

theorem componentOuts_congr (s : WalkState) (env : Surroundings) (tys : List TypeRef)
    (span : Span) : (componentOuts s env tys span).map Operand.core =
      (componentOuts s env tys .zero).map Operand.core := by
  rw [componentOuts, componentOuts, List.map_map, List.map_map]
  rfl

/-- The pair of what a step leads to. -/
def stepPair (s : WalkState) (env : Surroundings) (input : ScopePair) (inputTy : TypeRef) :
    Step → ScopePair
  | .member (.field owner name) ty =>
    (s.types env).fieldPair (some (input, inputTy)) owner name ty
  | .member (.property getter) ty => readPair s env getter (scrutinee s env input inputTy) ty
  | .component deconstruct before ty after =>
    componentPair (takenApart s env deconstruct (before ++ ty :: after) input inputTy)
      ((s.types env).stackOnly ty)

/-- The pair of what is at the end of a way. -/
def pathPair (s : WalkState) (env : Surroundings) (input : ScopePair) (inputTy : TypeRef) :
    List Step → ScopePair
  | [] => input
  | step :: rest => pathPair s env (stepPair s env input inputTy step) step.ty rest

/-- The variable that a leaf declares when a value is matched. -/
def leafLocal (s : WalkState) (env : Surroundings) (input : ScopePair) (inputTy : TypeRef)
    (leaf : Leaf) : LocalInfo :=
  let types := s.types env
  .ordinary types leaf.name leaf.ty
    (ordinaryPair (types.stackOnly leaf.ty) (pathPair s env input inputTy leaf.steps))

/-- Seen from further outside, it is the same variable. -/
theorem map_leafLocal_under (input : ScopePair) (inputTy : TypeRef) (step : Step)
    (leaves : List Leaf) :
    (leaves.map (.under step)).map (leafLocal s env input inputTy) =
      leaves.map (leafLocal s env (stepPair s env input inputTy step) step.ty) := by
  rw [List.map_map]
  rfl

/-! ## Patterns -/

/-- A pattern reads a member as its step says. -/
theorem run_accessMember (h : s.SameCalls env rs t) (hs : s.KeepsApart env rs)
    (hfree : t.forbidsLocals = false) (access : MemberAccess) (ty : TypeRef)
    (hr : ∀ r ∈ (Step.member access ty).ref?, r ∈ rs) (input : ScopePair) (inputTy : TypeRef)
    (span : Span) : (accessMember env access input inputTy ty span).answer t =
        stepPair s env input inputTy (.member access ty) ∧
      t.Onward env rs [] ((accessMember env access input inputTy ty span).after t) := by
  unfold accessMember
  rw [answer_bind, after_bind, answer_get, after_get, h.types_eq]
  cases access with
  | field owner name => exact ⟨rfl, .refl env rs t⟩
  | property getter =>
    have hgetter : getter ∈ rs := hr getter rfl
    have hop : (Operand.temporary "scrutinee" input ((s.types env).stackOnly inputTy) span).core =
        (scrutinee s env input inputTy).core := rfl
    exact ⟨(answer_readProperty hfree getter _ ty span).trans (h.readPair_eq hgetter hop ty),
      onward_readProperty hgetter (h.keepsApart hs) hfree _ _ _⟩

/-- Nothing is declared in place where there are no expressions. -/
theorem outLocals_of_none (types : TypeEnv) (c : Contract) (receiver : Option Operand)
    {args : List Operand} (h : ∀ op ∈ args, op.expr = none) :
    outLocals types c receiver args = [] := by
  have hnone (derived : Level) (isInvalid : Bool) :
      args.filterMap (outLocal? types derived isInvalid) = [] := by
    refine List.filterMap_eq_nil_iff.2 fun op hop => ?_
    simp [outLocal?, h op hop]
  simp [outLocals, hnone]

/-- Components of a value that was given up are given up. -/
theorem componentPair_of_invalid {outcome : Option Outcome}
    (h : ∀ o ∈ outcome, o.result.isInvalid = true) (stackOnly : Bool) :
    componentPair outcome stackOnly = .invalid := by
  cases outcome with
  | none => rfl
  | some o => simp [componentPair, h o rfl]

/-- A pattern takes a value apart as its steps say. -/
theorem run_deconstructInput (h : s.SameCalls env rs t) (hs : s.KeepsApart env rs)
    (hfree : t.forbidsLocals = false) {deconstruct : MemberRef} (hr : deconstruct ∈ rs)
    (tys : List TypeRef) (input : ScopePair) (inputTy : TypeRef) (span : Span) :
    (∀ stackOnly, componentPair ((deconstructInput env deconstruct tys input inputTy span).answer t)
        stackOnly = componentPair (takenApart s env deconstruct tys input inputTy) stackOnly) ∧
      t.Onward env rs [] ((deconstructInput env deconstruct tys input inputTy span).after t) := by
  have hresolve := onward_resolve hr (h.keepsApart hs) span
  have hcontract := answer_resolve env deconstruct span t
  rw [h.contracts deconstruct hr] at hcontract
  have htypes := (h.trans hresolve.toSameCalls).types_eq
  unfold deconstructInput takenApart
  rw [answer_bind, after_bind, answer_get, after_get, answer_bind, after_bind, h.types_eq,
    ← hcontract]
  cases (resolve env deconstruct span).answer t with
  | none => exact ⟨fun _ => rfl, hresolve⟩
  | some callee =>
    let u := (resolve env deconstruct span).after t
    let receiver := Operand.temporary "scrutinee" input ((s.types env).stackOnly inputTy) span
    let outs := componentOuts s env tys span
    let call := invoke env callee.contract (some receiver) outs .void span
    let taken : Walk (Option Outcome) :=
      if input.isInvalid then pure none else call >>= fun o => pure (some o)
    change (∀ _, componentPair (taken.answer u) _ = _) ∧ t.Onward env rs [] (taken.after u)
    have hpure := callee.contract.outcome_congr ((s.types env).stackOnly .void)
      (receiver_congr s env input inputTy span) (componentOuts_congr s env tys span)
    cases hinvalid : input.isInvalid with
    | true =>
      have htaken : taken = pure none := if_pos hinvalid
      rw [htaken]
      refine ⟨fun stackOnly => (componentPair_of_invalid (fun o ho => ?_) stackOnly).symm, hresolve⟩
      obtain rfl := Option.mem_some_iff.1 ho
      have hreceiver : (scrutinee s env input inputTy).pair.isInvalid = true := hinvalid
      exact congrArg (fun o : Outcome => o.result.isInvalid)
        (callee.contract.outcome_of_invalid hreceiver _ _)
    | false =>
      have htaken : taken = call >>= fun o => pure (some o) := by simp [taken, hinvalid]
      have hinvoke := onward_invoke env rs (hresolve.forbidsLocals_eq.trans hfree) callee.contract
        (some receiver) outs .void span
      rw [outLocals_of_none _ _ _ (by simp [outs, componentOuts])] at hinvoke
      rw [htaken]
      refine ⟨fun stackOnly => ?_, hresolve.trans hinvoke⟩
      have hanswer := answer_invoke env callee.contract (some receiver) outs .void span u
      rw [htypes, hpure] at hanswer
      exact congrArg (fun o => componentPair (some o) stackOnly) hanswer

/-- A declaration pattern declares its variable. -/
theorem after_bindPattern (hfree : t.forbidsLocals = false) {name : String} {ty : TypeRef}
    {span : Span} (hshape : (t.types env).typeErrors span ty = []) (input : ScopePair) :
    (bindPattern env name ty input span).after t = t.declaring
      (.ordinary (t.types env) name ty (ordinaryPair ((t.types env).stackOnly ty) input)) := by
  obtain ⟨hwell, hsame⟩ := run_checkShape hshape
  obtain ⟨value, ref, isInvalid⟩ := input
  let input : ScopePair := ⟨value, ref, isInvalid⟩
  have hpair : (if isInvalid || !true then ScopePair.invalid
      else if (t.types env).stackOnly ty then input.withRef .currentMethod
      else .temporary) = ordinaryPair ((t.types env).stackOnly ty) input := by
    cases isInvalid <;> cases (t.types env).stackOnly ty <;> rfl
  rw [← hpair, ← after_declareBinding hfree]
  unfold bindPattern
  rw [after_bind, hwell, hsame]
  rfl

mutual

/-- **Patterns.** A plain pattern declares its variables, each with the pair of its way. -/
theorem run_checkPattern (hs : s.KeepsApart env rs) :
    (p : Pattern) → p.IsPlain → p.refs ⊆ rs →
    (∀ leaf ∈ p.leaves, (s.types env).typeErrors leaf.span leaf.ty = []) →
    ∀ (t : WalkState), s.SameCalls env rs t → t.forbidsLocals = false →
    ∀ input inputTy span, t.Onward env rs (p.leaves.map (leafLocal s env input inputTy))
      ((checkPattern env input inputTy span p).after t)
  | .discard, _, _, _, t, _, _, _, _, _ => by
    rw [checkPattern, Pattern.leaves]
    exact .refl env rs t
  | .declaration name ty span, _, _, hshape, t, h, hfree, input, inputTy, _ => by
    have hty := hshape ⟨[], name, ty, span⟩ (by simp [Pattern.leaves])
    rw [← h.types_eq] at hty
    rw [checkPattern, Pattern.leaves, after_bindPattern hfree hty, h.types_eq]
    exact .of_tables rfl rfl rfl
  | .property none subpatterns, hp, hr, hshape, t, h, hfree, input, inputTy, span => by
    rw [Pattern.refs] at hr
    rw [Pattern.leaves] at hshape
    rw [checkPattern, Pattern.leaves]
    exact run_checkSubPatterns hs subpatterns hp hr hshape t h hfree input inputTy
  | .positional deconstruct subpatterns tys, hp, hr, hshape, t, h, hfree, input, inputTy, span => by
    rw [Pattern.refs] at hr
    rw [Pattern.leaves] at hshape
    rw [checkPattern, Pattern.leaves, after_bind]
    obtain ⟨hpair, honward⟩ := run_deconstructInput h hs hfree (hr (List.mem_cons_self ..)) tys
      input inputTy span
    exact honward.trans (run_checkComponents hs deconstruct subpatterns [] tys hp
      (fun r hr' => hr (List.mem_cons_of_mem _ hr')) hshape _ (h.trans honward.toSameCalls)
      (honward.forbidsLocals_eq.trans hfree) input inputTy span _ hpair)

/-- So do the entries of a property pattern. -/
theorem run_checkSubPatterns (hs : s.KeepsApart env rs) :
    (subpatterns : List SubPattern) → Pattern.SubPatternsPlain subpatterns →
    Pattern.refsOfSubPatterns subpatterns ⊆ rs →
    (∀ leaf ∈ Pattern.leavesOfSubPatterns subpatterns,
      (s.types env).typeErrors leaf.span leaf.ty = []) →
    ∀ (t : WalkState), s.SameCalls env rs t → t.forbidsLocals = false →
    ∀ input inputTy, t.Onward env rs
      ((Pattern.leavesOfSubPatterns subpatterns).map (leafLocal s env input inputTy))
      ((checkSubPatterns env input inputTy subpatterns).after t)
  | [], _, _, _, t, _, _, _, _ => by
    rw [checkSubPatterns, Pattern.leavesOfSubPatterns]
    exact .refl env rs t
  | ⟨access, ty, pattern, span⟩ :: rest, hp, hr, hshape, t, h, hfree, input, inputTy => by
    rw [Pattern.SubPatternsPlain] at hp
    rw [Pattern.leavesOfSubPatterns] at hshape ⊢
    rw [checkSubPatterns, after_bind, after_bind, List.map_append, map_leafLocal_under]
    have haccess : ∀ r ∈ (Step.member access ty).ref?, r ∈ rs := by
      rintro r hr'
      cases access with
      | field owner name => cases hr'
      | property getter =>
        obtain rfl := Option.mem_some_iff.1 hr'
        exact hr (by simp [Pattern.refsOfSubPatterns])
    have hboth : pattern.refs ⊆ rs ∧ Pattern.refsOfSubPatterns rest ⊆ rs := by
      cases access <;> simp_all [Pattern.refsOfSubPatterns]
    obtain ⟨hpair, hread⟩ := run_accessMember h hs hfree access ty haccess input inputTy span
    have hfirst := run_checkPattern hs pattern hp.1 hboth.1
      (fun leaf hleaf => hshape (leaf.under (.member access ty))
        (List.mem_append_left _ (List.mem_map_of_mem hleaf)))
      _ (h.trans hread.toSameCalls) (hread.forbidsLocals_eq.trans hfree)
      (stepPair s env input inputTy (.member access ty)) ty span
    have hfar := hread.trans hfirst
    have hrest := run_checkSubPatterns hs rest hp.2 hboth.2
      (fun leaf hleaf => hshape leaf (List.mem_append_right _ hleaf))
      _ (h.trans hfar.toSameCalls) (hfar.forbidsLocals_eq.trans hfree) input inputTy
    rw [hpair]
    exact hfar.trans hrest

/-- So do the parts of a positional pattern. -/
theorem run_checkComponents (hs : s.KeepsApart env rs)
    (deconstruct : MemberRef) :
    (subpatterns : List Pattern) → (before tys : List TypeRef) →
    Pattern.ComponentsPlain subpatterns → Pattern.refsOfComponents subpatterns ⊆ rs →
    (∀ leaf ∈ Pattern.leavesOfComponents deconstruct before subpatterns tys,
      (s.types env).typeErrors leaf.span leaf.ty = []) →
    ∀ (t : WalkState), s.SameCalls env rs t → t.forbidsLocals = false →
    ∀ input inputTy span outcome,
    (∀ stackOnly, componentPair outcome stackOnly =
      componentPair (takenApart s env deconstruct (before ++ tys) input inputTy) stackOnly) →
    t.Onward env rs ((Pattern.leavesOfComponents deconstruct before subpatterns tys).map
        (leafLocal s env input inputTy))
      ((checkComponents env outcome span subpatterns tys).after t)
  | [], _, _, _, _, _, t, _, _, _, _, _, _, _ => by
    rw [checkComponents, Pattern.leavesOfComponents]
    · exact .refl env rs t
    all_goals simp
  | _ :: _, _, [], _, _, _, t, _, _, _, _, _, _, _ => by
    rw [checkComponents, Pattern.leavesOfComponents]
    · exact .refl env rs t
    all_goals simp
  | pattern :: rest, before, ty :: tys, hp, hr, hshape, t, h, hfree, input, inputTy, span, outcome,
      hpair => by
    rw [Pattern.ComponentsPlain] at hp
    rw [Pattern.refsOfComponents] at hr
    rw [Pattern.leavesOfComponents] at hshape ⊢
    rw [checkComponents, List.map_append, map_leafLocal_under]
    have hcomponent : componentPair outcome ((t.types env).stackOnly ty) =
        stepPair s env input inputTy (.component deconstruct before ty tys) := by
      rw [hpair, h.types_eq]
      rfl
    have hfirst := run_checkPattern hs pattern hp.1
      (fun r hr' => hr (List.mem_append_left _ hr'))
      (fun leaf hleaf => hshape (leaf.under (.component deconstruct before ty tys))
        (List.mem_append_left _ (List.mem_map_of_mem hleaf)))
      t h hfree (componentPair outcome ((t.types env).stackOnly ty)) ty span
    have hrest := run_checkComponents hs deconstruct rest (before ++ [ty]) tys hp.2
      (fun r hr' => hr (List.mem_append_right _ hr'))
      (fun leaf hleaf => hshape leaf (List.mem_append_right _ hleaf))
      _ (h.trans hfirst.toSameCalls) (hfirst.forbidsLocals_eq.trans hfree) input inputTy span
      outcome (by rwa [List.append_assoc])
    rw [← hcomponent]
    exact hfirst.trans hrest

end

end Walk

end StackEscape
