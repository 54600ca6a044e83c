import StackEscape.Proofs.TypedParts
import StackEscape.Proofs.Visits

/-!
# Walks that heed types

A walk heeds some typed parts if their types were looked at wherever it reports nothing. Two kinds of
silence matter. If it reports no error at all, then written types and parameters have well-shaped types,
and variables of functions that may be suspended are not stack-only. If it only reports no value of an
expression tree, then no value inside of one is stack-only, and neither is a well-shaped parameter.

## Main definitions

* `StackEscape.Regard`, `WalkState.Quiet` — the errors that are looked for, and their absence.
* `StackEscape.TypedPart.Heeded`, `Settled` — what is asked of a part.
* `StackEscape.Inspection.Sees`, `At` — the states in which that is asked.
* `StackEscape.Walk.Heeds` — a walk heeds some parts.

## Main results

* `StackEscape.Inspection.Sees.later`, `At.later` — the walk goes on in such states.
* `StackEscape.Walk.Heeds.bind` — one walk after the other heeds the parts of both.
* `StackEscape.Walk.Heeds.step`, `rejects` — what a single step has to look at.

## Implementation notes

A variable is only refused where its value was not given up, so what is said of variables follows the
induction by which nothing is given up in a walk without errors. What is said of written types and of
values needs none of that.
-/

set_option autoImplicit false

namespace StackEscape

/-! ## Errors that are looked for -/

/-- Which errors are looked for. -/
inductive Regard where
  /-- Any error. -/
  | anything
  /-- Values in expression trees. -/
  | trees

/-- Is the error one that is looked for? -/
def Regard.counts : Regard → EscapeErrorKind → Bool
  | .anything, _ => true
  | .trees, .expressionTree _ => true
  | .trees, _ => false

/-- Nothing that is looked for is reported from the first state to the second. -/
def WalkState.Quiet (r : Regard) (s t : WalkState) : Prop :=
  ∃ es, t.errors = s.errors ++ es ∧ ∀ e ∈ es, r.counts e.kind = false

namespace WalkState.Quiet

variable {r : Regard} {s t u : WalkState} {es : List EscapeError}

/-- What is reported is not looked for. -/
theorem counts (h : s.Quiet r t) (ht : t.errors = s.errors ++ es) :
    ∀ e ∈ es, r.counts e.kind = false := by
  obtain ⟨fs, hf, hquiet⟩ := h
  obtain rfl : es = fs := List.append_cancel_left (ht.symm.trans hf)
  exact hquiet

/-- Where no error is looked for in vain, none is reported. -/
theorem errors_eq (h : s.Quiet .anything t) (ht : t.errors = s.errors ++ es) : es = [] := by
  cases es with
  | nil => rfl
  | cons e rest => exact absurd (h.counts ht e (List.mem_cons_self ..)) (by simp [Regard.counts])

/-- Both parts of a quiet walk are quiet. -/
theorem split (h : s.Quiet r u) (hst : ∃ es, t.errors = s.errors ++ es)
    (htu : ∃ es, u.errors = t.errors ++ es) : s.Quiet r t ∧ t.Quiet r u := by
  obtain ⟨es, hes⟩ := hst
  obtain ⟨fs, hfs⟩ := htu
  have hall := h.counts (by rw [hfs, hes, List.append_assoc])
  exact ⟨⟨es, hes, fun e he => hall e (List.mem_append_left _ he)⟩,
    ⟨fs, hfs, fun e he => hall e (List.mem_append_right _ he)⟩⟩

end WalkState.Quiet

/-! ## What is asked of a part -/

namespace TypedPart

/-- What holds of the part if nothing that is looked for is reported. Parameters that are bound by a
contract need that this is the contract of their own function. -/
def Heeded (I : Inspection) (r : Regard) (caps : Capabilities) (x : TypedPart) : Prop :=
  let types := x.setting.types I.env caps
  match r, x.role with
  | .anything, .written => types.WellShaped x.ty
  | .anything, .param byContract => (byContract = true → I.strict) → types.WellShaped x.ty
  | .trees, .value => types.stackOnly x.ty = false
  | .trees, .param byContract =>
    (byContract = true → I.strict) → types.WellShaped x.ty → types.stackOnly x.ty = false
  | _, _ => True

/-- A variable of a function that may be suspended is not stack-only. -/
def Settled (I : Inspection) (x : TypedPart) : Prop :=
  x.role.isVariable = true → x.setting.suspends = true →
    (x.setting.types I.env I.caps).stackOnly x.ty = false

/-- Nothing is asked of a variable that is no parameter, unless its function may be suspended. -/
theorem heeded_binding (I : Inspection) (r : Regard) (caps : Capabilities) (c : Setting)
    (ty : TypeRef) : Heeded I r caps ⟨c, .binding, ty⟩ := by
  cases r <;> trivial

/-- Nothing is asked of a type that a nested function returns. -/
theorem heeded_result (I : Inspection) (r : Regard) (caps : Capabilities) (c : Setting)
    (ty : TypeRef) : Heeded I r caps ⟨c, .result, ty⟩ := by
  cases r <;> trivial

/-- Only variables matter to a function that may be suspended. -/
theorem settled_of_role {I : Inspection} {x : TypedPart} (h : x.role.isVariable = false) :
    x.Settled I := fun hvar => absurd hvar (by rw [h]; decide)

end TypedPart

/-! ## The states in which it is asked -/

namespace Inspection

variable {I : Inspection} {a : Point} {c : Setting} {g : GenericScope} {r : Regard}
  {s t : WalkState}

/-- What is assumed of the program, whether there are errors or not. -/
structure Orderly (I : Inspection) : Prop where
  /-- The walked member is one of the program. -/
  mem : I.env.member ∈ I.env.program.members
  /-- Positional patterns have component types for all their parts. -/
  regular : ∀ x ∈ I.env.member.sites, x.IsRegular
  /-- Local functions have no type parameters. -/
  plain : I.strict → ∀ d ∈ I.env.member.localFunctions, d.typeParams = []
  /-- Keys are distinct. -/
  keys : I.strict → I.env.program.DistinctKeys

theorem Sound.orderly (h : I.Sound) : I.Orderly := ⟨h.mem, h.regular, h.plain, h.keys⟩

/-- All type parameters in scope are filed in the state, and it is one inside of an expression tree if
values in expression trees are looked for. -/
structure Sees (I : Inspection) (r : Regard) (g : GenericScope) (s : WalkState) : Prop where
  /-- It is within the body. -/
  placed : s.Placed I.env
  /-- These type parameters are in scope. -/
  generics : s.generics = g
  /-- They are filed. -/
  filed : g.Filed s.tables.caps
  /-- Those of all types are filed. -/
  entered : I.env.program.Entered s.tables.caps
  /-- The filed contracts are those of the declarations. -/
  exact : I.strict → s.tables.Exact I.env.program I.caps
  /-- It is inside of an expression tree. -/
  inTree : r = .trees → s.ctx.inExpressionTree = true

namespace Sees

/-- A later state is seen as well. -/
theorem later (hI : I.Orderly) (h : I.Sees r g s) (hp : s.Progress I.env t) : I.Sees r g t := by
  have hwithin := hp.before.within
  refine ⟨hp.placed h.placed, hp.generics.trans h.generics, h.filed.within hwithin,
    h.entered.within hwithin,
    fun hst => (h.exact hst).steps (hI.keys hst) hI.mem (hI.plain hst) hp.tables, fun hr => ?_⟩
  obtain ⟨infos, hc⟩ := hp.context
  rw [hc, Context.inExpressionTree_declareAll]
  exact h.inTree hr

/-- What types mean in the state. -/
theorem types_eq (h : I.Sees r c.scope s) : s.types I.env = c.types I.env s.tables.caps := by
  rw [WalkState.types, h.generics]
  rfl

/-- Later tables say the same of whether a type is stack-only. -/
theorem stackOnly_eq (h : I.Sees r c.scope s) {caps : Capabilities}
    (hcaps : s.tables.caps.Within caps) (ty : TypeRef) :
    (s.types I.env).stackOnly ty = (c.types I.env caps).stackOnly ty := by
  rw [h.types_eq]
  exact TypeEnv.stackOnly_within I.env.runtime h.filed hcaps ty

/-- Later tables say the same of whether a type is well-shaped. -/
theorem wellShaped_iff (h : I.Sees r c.scope s) {caps : Capabilities}
    (hcaps : s.tables.caps.Within caps) (ty : TypeRef) :
    (s.types I.env).WellShaped ty ↔ (c.types I.env caps).WellShaped ty := by
  rw [h.types_eq]
  exact TypeEnv.wellShaped_within I.env.runtime h.filed h.entered hcaps ty

/-- A change of the scopes that stays in expression trees is not seen. -/
theorem withContext (h : I.Sees r g s) {ctx : Context}
    (hp : WalkState.Placed I.env { s with ctx }) {r' : Regard}
    (htree : r' = .trees → ctx.inExpressionTree = true) : I.Sees r' g { s with ctx } :=
  ⟨hp, h.generics, h.filed, h.entered, h.exact, htree⟩

end Sees

/-- A state at a point and in a setting in which nothing was given up so far. -/
structure At (I : Inspection) (a : Point) (c : Setting) (s : WalkState) : Prop where
  /-- It is one at the point. -/
  point : I.Matches a s
  /-- Nothing was given up. -/
  intact : s.Intact
  /-- The type parameters of the setting are in scope. -/
  generics : s.generics = c.scope
  /-- The innermost function is suspended as the setting says. -/
  suspends : s.forbidsLocals = c.suspends

namespace At

/-- A later state in which nothing was given up is one there. -/
theorem later (hI : I.Sound) (h : I.At a c s) (hp : s.Progress I.env t) (hi : t.Intact) :
    I.At a c t := by
  obtain ⟨infos, hc⟩ := hp.context
  refine ⟨h.point.later hI hp, hi, hp.generics.trans h.generics, ?_⟩
  rw [← h.suspends, WalkState.forbidsLocals, WalkState.forbidsLocals, hc, Context.function,
    Context.frames_declareAll, Context.function]

/-- What types mean in the state. -/
theorem types_eq (hst : I.strict) (h : I.At a c s) : s.types I.env = c.types I.env I.caps := by
  rw [WalkState.types, h.generics, (h.point.tables hst).caps_eq]
  rfl

end At

/-- The facts at the end do not matter to what is assumed. -/
theorem Sound.withFacts (h : I.Sound) (facts : Facts) : Sound { I with facts } :=
  ⟨h.mem, h.regular, h.placed, h.plain, h.keys⟩

/-- Nor to where a state is. -/
theorem Matches.withFacts (h : I.Matches a s) (facts : Facts) : Matches { I with facts } a s :=
  ⟨h.placed, h.enclosed, h.functions, h.function, h.receivers, h.valid, h.tables⟩

end Inspection

/-! ## Walks that heed parts -/

/-- The walk heeds the parts. If something is known before, then it yields answers with the stated
property where it reports no error. -/
structure Walk.Heeds (I : Inspection) {α : Type} (a : Point) (c : Setting) (pre : Prop)
    (ws : List Site) (xs : List TypedPart) (Q : α → Prop) (m : Walk α) : Prop where
  /-- It is proper. -/
  proper : ws ⊆ I.env.member.sites → m.Proper I.env
  /-- Where nothing is reported that is looked for, the types are as they should be. -/
  heeds : ws ⊆ I.env.member.sites → I.Orderly → ∀ (r : Regard) (s : WalkState) (caps : Capabilities),
    I.Sees r c.scope s → s.Quiet r (m.after s) → (m.after s).tables.caps.Within caps →
      ∀ x ∈ xs, x.Heeded I r caps
  /-- If there is no error at the end, nothing was given up, and no stack-only variable stands in a
  function that may be suspended. -/
  run : ws ⊆ I.env.member.sites → I.Sound → pre → ∀ s : WalkState, I.At a c s →
    (m.after s).errors = [] →
      Q (m.answer s) ∧ (m.after s).Intact ∧ (I.strict → ∀ x ∈ xs, x.Settled I)

namespace Walk.Heeds

variable {I : Inspection} {α β : Type} {a : Point} {c : Setting} {pre pre' : Prop}
  {ws ws' : List Site} {xs ys : List TypedPart} {Q Q' : α → Prop} {R : β → Prop}

/-! ### Composition -/

theorem pure {x : α} (h : pre → Q x) : Heeds I a c pre [] [] Q (Pure.pure x : Walk α) :=
  ⟨fun _ => .pure x, by simp, fun _ _ hpre _ hs _ => ⟨h hpre, hs.intact, by simp⟩⟩

/-- A step that covers no sites heeds what it looks at by itself. -/
theorem step {m : Walk α} (h : ∀ facts, Covers { I with facts } a pre [] Q m)
    (hx : I.Orderly → ∀ (r : Regard) (s : WalkState) (caps : Capabilities), I.Sees r c.scope s →
      s.Quiet r (m.after s) → (m.after s).tables.caps.Within caps → ∀ x ∈ xs, x.Heeded I r caps)
    (hR : I.Sound → pre → ∀ s : WalkState, I.At a c s → (m.after s).errors = [] → Q (m.answer s) →
      Q' (m.answer s) ∧ (I.strict → ∀ x ∈ xs, x.Settled I)) : Heeds I a c pre [] xs Q' m where
  proper _ := (h I.facts).proper (List.nil_subset _)
  heeds _ := hx
  run _ hI hpre s hs he := by
    obtain ⟨hq, hi, _⟩ := (h (m.after s).facts).run (List.nil_subset _) (hI.withFacts _) hpre s
      (hs.point.withFacts _) hs.intact ⟨List.nodup_nil, by simp⟩ he fun _ _ hid => hid
    obtain ⟨hq, hx⟩ := hR hI hpre s hs he hq
    exact ⟨hq, hi, hx⟩

/-- A step that covers no sites and has nothing to heed. -/
theorem silent {m : Walk α} (h : ∀ facts, Covers { I with facts } a pre [] Q m) :
    Heeds I a c pre [] [] Q m :=
  step h (by simp) fun _ _ _ _ _ hq => ⟨hq, by simp⟩

/-- A step that covers no sites and gives up a variable only in a function that may be suspended. -/
theorem rejects {m : Walk α} {ty : TypeRef} (h : ∀ facts, Covers { I with facts } a pre [] Q m)
    (hr : I.strict → pre → ∀ s : WalkState, I.At a c s →
      (s.types I.env).stackOnly ty = true → s.forbidsLocals = true → (m.after s).errors ≠ []) :
    Heeds I a c pre [] [⟨c, .binding, ty⟩] Q m := by
  refine step h (fun _ r _ caps _ _ _ x hx => ?_) fun _ hpre s hs he hq => ⟨hq, fun hst x hx => ?_⟩
  · obtain rfl := List.mem_singleton.1 hx
    exact TypedPart.heeded_binding I r caps c ty
  · obtain rfl := List.mem_singleton.1 hx
    intro _ hsuspends
    by_contra hso
    rw [Bool.not_eq_false, ← hs.types_eq hst] at hso
    exact hr hst hpre s hs hso (hs.suspends.trans hsuspends) he

/-- More may be known before, and less be asked after. -/
theorem imp {m : Walk α} (h : Heeds I a c pre ws xs Q m) (hpre : pre' → pre)
    (hQ : ∀ x, pre' → Q x → Q' x) : Heeds I a c pre' ws xs Q' m where
  proper := h.proper
  heeds := h.heeds
  run hsub hI hp s hs he := by
    obtain ⟨hq, hrest⟩ := h.run hsub hI (hpre hp) s hs he
    exact ⟨hQ _ hp hq, hrest⟩

theorem given {m : Walk α} (h : Heeds I a c pre ws xs Q m) (hpre : pre' → pre) :
    Heeds I a c pre' ws xs Q m := h.imp hpre fun _ _ hq => hq

/-- The sites may be more. -/
theorem among {m : Walk α} (h : Heeds I a c pre ws xs Q m) (hws : ws ⊆ ws') :
    Heeds I a c pre ws' xs Q m :=
  ⟨fun hsub => h.proper (List.Subset.trans hws hsub),
    fun hsub => h.heeds (List.Subset.trans hws hsub), fun hsub => h.run (List.Subset.trans hws hsub)⟩

/-- The type that a nested function returns is passed over. -/
theorem result {m : Walk α} (h : Heeds I a c pre ws xs Q m) (d : Setting) (ty : TypeRef) :
    Heeds I a c pre ws (⟨d, .result, ty⟩ :: xs) Q m where
  proper := h.proper
  heeds hsub hI r s caps hs hq hcaps := List.forall_mem_cons.2
    ⟨TypedPart.heeded_result I r caps d ty, h.heeds hsub hI r s caps hs hq hcaps⟩
  run hsub hI hpre s hs he := by
    obtain ⟨hq, hi, hx⟩ := h.run hsub hI hpre s hs he
    exact ⟨hq, hi, fun hst => List.forall_mem_cons.2 ⟨TypedPart.settled_of_role rfl, hx hst⟩⟩

/-- One walk after the other heeds the parts of both. -/
theorem bind {m : Walk α} {f : α → Walk β} (hm : Heeds I a c pre ws xs Q m)
    (hf : ∀ x, Heeds I a c (pre ∧ Q x) ws' ys R (f x)) :
    Heeds I a c pre (ws ++ ws') (xs ++ ys) R (m >>= f) where
  proper hsub := (hm.proper (List.append_subset.1 hsub).1).bind
    fun x => (hf x).proper (List.append_subset.1 hsub).2
  heeds hsub hI r s caps hs hq hcaps x hx := by
    obtain ⟨hws, hws'⟩ := List.append_subset.1 hsub
    have hp := (hm.proper hws).progress s hs.placed
    have hp' := ((hf (m.answer s)).proper hws').progress _ (hp.placed hs.placed)
    obtain ⟨hq₁, hq₂⟩ := hq.split hp.errors hp'.errors
    rcases List.mem_append.1 hx with hx | hx
    · exact hm.heeds hws hI r s caps hs hq₁ (hp'.before.within.trans hcaps) x hx
    · exact (hf _).heeds hws' hI r _ caps (hs.later hI hp) hq₂ hcaps x hx
  run hsub hI hpre s hs he := by
    obtain ⟨hws, hws'⟩ := List.append_subset.1 hsub
    have hp := (hm.proper hws).progress s hs.point.placed
    have hp' := ((hf (m.answer s)).proper hws').progress _ (hp.placed hs.point.placed)
    obtain ⟨hq, hi, hx⟩ := hm.run hws hI hpre s hs (hp'.errors_eq_nil he)
    obtain ⟨hr, hi', hy⟩ := (hf _).run hws' hI ⟨hpre, hq⟩ _ (hs.later hI hp hi) he
    exact ⟨hr, hi', fun hst => List.forall_mem_append.2 ⟨hx hst, hy hst⟩⟩

/-- A walk and then one that covers no sites and heeds nothing. -/
theorem bind_nil {m : Walk α} {f : α → Walk β} (hm : Heeds I a c pre ws xs Q m)
    (hf : ∀ x, Heeds I a c (pre ∧ Q x) [] [] R (f x)) : Heeds I a c pre ws xs R (m >>= f) := by
  have h := hm.bind hf
  rwa [List.append_nil, List.append_nil] at h

/-- A walk and then one that covers no sites. -/
theorem bind_step {m : Walk α} {f : α → Walk β} (hm : Heeds I a c pre ws xs Q m)
    (hf : ∀ x, Heeds I a c (pre ∧ Q x) [] ys R (f x)) :
    Heeds I a c pre ws (xs ++ ys) R (m >>= f) := by
  have h := hm.bind hf
  rwa [List.append_nil] at h

/-- A walk that covers no sites and heeds nothing, and then another one. -/
theorem nil_bind {m : Walk α} {f : α → Walk β} (hm : Heeds I a c pre [] [] Q m)
    (hf : ∀ x, Heeds I a c (pre ∧ Q x) ws ys R (f x)) : Heeds I a c pre ws ys R (m >>= f) :=
  hm.bind hf

/-- A walk of which the answer is not used. -/
theorem discard {m : Walk α} (h : Heeds I a c pre ws xs Q m) :
    Heeds I a c pre ws xs (fun _ => True) (Functor.discard m) :=
  h.bind_nil fun _ => .pure fun _ => trivial

/-- A walk that depends on a condition. -/
theorem ite {b : Prop} [Decidable b] {m n : Walk α} (hm : b → Heeds I a c pre ws xs Q m)
    (hn : ¬ b → Heeds I a c pre ws xs Q n) : Heeds I a c pre ws xs Q (if b then m else n) := by
  split
  · next h => exact hm h
  · next h => exact hn h

/-- A walk may look at the state, but must not tell alike states apart. -/
theorem look {k : WalkState → Walk α}
    (same : I.env.Apart → ∀ s t : WalkState, s.Alike I.env t → k s = k t)
    (hk : ∀ s : WalkState, s.Placed I.env →
      Heeds I a c (pre ∧ I.Sound ∧ I.At a c s) ws xs Q (k s)) :
    Heeds I a c pre ws xs Q (get >>= k) where
  proper hsub := .look same fun s hs => (hk s hs).proper hsub
  heeds hsub hI r s caps hs := (hk s hs.placed).heeds hsub hI r s caps hs
  run hsub hI hpre s hs := (hk s hs.point.placed).run hsub hI ⟨hpre, hI, hs⟩ s hs

/-- What is never done settles the variables that it would declare. -/
theorem vacuous {m : Walk α} (hno : ¬ pre) (hm : ∀ facts, Covers { I with facts } a False [] Q' m)
    (hxs : ∀ x ∈ xs, x.role = .binding) : Heeds I a c pre [] xs Q m where
  proper _ := (hm I.facts).proper (List.nil_subset _)
  heeds _ _ r _ caps _ _ _ x hx := by
    obtain ⟨setting, role, ty⟩ := x
    obtain rfl : role = .binding := hxs _ hx
    exact TypedPart.heeded_binding I r caps setting ty
  run _ _ hpre := absurd hpre hno

end Walk.Heeds

end StackEscape
