import Mathlib.Data.List.Nodup
import StackEscape.Declarations.Clause
import StackEscape.Proofs.GraphRecursion

/-!
# Constraints among type parameters

Type parameters of one declaration may be bounded by each other. They form a graph in which circles are
reported, each at an edge that closes it. What a clause says of its parameter holds of all parameters that
are bounded by it, however indirectly: a parameter is known to be a value type, or a reference type,
exactly if some clause says so that its bounds lead to. No circle and no diamond hides one.

## Main definitions

* `StackEscape.TypeParam.Demands` — a clause has a constraint of a kind.
* `StackEscape.BoundedAt` — one position is bounded by another.
* `StackEscape.Clause.BoundedBy`, `BoundedOutside` — bounds among siblings, and around them.
* `StackEscape.Clause.DemandsValue`, `DemandsReference` — what a clause says by itself.

## Main results

* `StackEscape.edge_boundPositions` — the graph in which circles are searched.
* `StackEscape.cycleErrors_of_circles` — which circles are reported.
* `StackEscape.Clause.mem_reached_iff` — where the bounds of a type parameter lead to.
* `StackEscape.Clause.capability_of_bounds` — what is known of a type parameter.
-/

set_option autoImplicit false

namespace StackEscape

/-! ## What a clause demands -/

namespace TypeParam

variable {q : TypeParam} {kind : ConstraintKind} {name : String}

/-- The clause has a constraint of the kind. -/
def Demands (q : TypeParam) (kind : ConstraintKind) : Prop := ∃ k ∈ q.constraints, k.kind = kind

theorem has_iff : q.has kind = true ↔ q.Demands kind := by
  simp [has, Demands]

theorem mem_bounds_iff {ty : TypeRef} : ty ∈ q.bounds ↔ q.Demands (.bound ty) := by
  simp only [bounds, List.mem_filterMap, Demands]
  refine exists_congr fun k => and_congr_right fun _ => ?_
  cases k.kind <;> simp

theorem mem_boundParams_iff : name ∈ q.boundParams ↔ q.Demands (.bound (.param name)) := by
  simp only [boundParams, List.mem_filterMap, mem_bounds_iff]
  constructor
  · rintro ⟨ty, hty, hname⟩
    cases ty <;> simp_all
  · exact fun h => ⟨.param name, h, rfl⟩

theorem mem_boundDecls_iff :
    name ∈ q.boundDecls ↔ ∃ args, q.Demands (.bound (.named name args)) := by
  simp only [boundDecls, List.mem_filterMap, mem_bounds_iff]
  constructor
  · rintro ⟨ty, hty, hname⟩
    cases ty <;> simp_all [TypeRef.declName]
    exact ⟨_, hty⟩
  · exact fun ⟨args, h⟩ => ⟨.named name args, h, rfl⟩

end TypeParam

/-! ## Circles -/

section Circles

variable {params : List TypeParam} {i j : Nat}

/-- The type parameter at the first position is bounded by the one at the second position, which is the
first one of its name. -/
def BoundedAt (params : List TypeParam) (i j : Nat) : Prop :=
  ∃ q r, params[i]? = some q ∧ params[j]? = some r ∧ q.Demands (.bound (.param r.name)) ∧
    ∀ k < j, ∀ s, params[k]? = some s → s.name ≠ r.name

/-- A name means the first type parameter that has it. -/
theorem findIdx?_name_iff {name : String} :
    (params.findIdx? fun r => decide (r.name = name)) = some j ↔
      ∃ r, params[j]? = some r ∧ r.name = name ∧
        ∀ k < j, ∀ s, params[k]? = some s → s.name ≠ name := by
  rw [List.findIdx?_eq_some_iff_getElem]
  simp only [decide_eq_true_eq]
  constructor
  · rintro ⟨hj, hname, hfirst⟩
    refine ⟨params[j], List.getElem?_eq_getElem hj, hname, fun k hk s hs => ?_⟩
    obtain ⟨_, rfl⟩ := List.getElem?_eq_some_iff.1 hs
    exact hfirst k hk
  · rintro ⟨r, hr, hname, hfirst⟩
    obtain ⟨hj, rfl⟩ := List.getElem?_eq_some_iff.1 hr
    exact ⟨hj, hname, fun k hk => hfirst k hk _ (List.getElem?_eq_getElem (hk.trans hj))⟩

/-- Circles are searched in the graph of bounds. -/
theorem edge_boundPositions (params : List TypeParam) :
    Edge (boundPositions params) = BoundedAt params := by
  funext i j
  refine propext ?_
  unfold Edge boundPositions BoundedAt
  cases hi : params[i]? with
  | none => simp
  | some q =>
    simp only [List.mem_filterMap, findIdx?_name_iff, TypeParam.mem_boundParams_iff]
    constructor
    · rintro ⟨_, hbound, r, hj, rfl, hfirst⟩
      exact ⟨q, r, rfl, hj, hbound, hfirst⟩
    · rintro ⟨_, r, hq, hj, hbound, hfirst⟩
      cases hq
      exact ⟨r.name, hbound, r, hj, rfl, hfirst⟩

/-- The search leaves no position that there is not. -/
theorem boundPositions_eq_nil (h : i ∉ List.range params.length) : boundPositions params i = [] := by
  have hnone : params[i]? = none := List.getElem?_eq_none (by simpa using h)
  simp only [boundPositions, hnone]

/-- Each closing edge is reported. -/
theorem cycleErrors_eq_nil_iff : cycleErrors params = [] ↔
    closingEdges (boundPositions params) (List.range params.length) = [] := by
  constructor
  · intro hnone
    refine List.eq_nil_iff_forall_not_mem.2 fun e he => ?_
    have hedge := (mem_closingEdges he).1
    rw [edge_boundPositions] at hedge
    obtain ⟨q, r, hq, hr, -, -⟩ := hedge
    have herror : cycleError params e = some ⟨.cyclicConstraint q.name r.name, q.span⟩ := by
      simp only [cycleError, hq, hr]
    have hmem : ⟨.cyclicConstraint q.name r.name, q.span⟩ ∈ cycleErrors params :=
      List.mem_filterMap.2 ⟨e, he, herror⟩
    exact List.not_mem_nil (hnone ▸ hmem)
  · intro hnone
    rw [cycleErrors, hnone, List.filterMap_nil]

/-- **Circles of constraints.** The search for circles ends. It reports something exactly if the bounds
form a circle, and whatever it reports names two type parameters on a common circle: the first one is
bounded by the second one, which leads back to it.

**Proof sketch.** A closing edge leads to a node from which there is a way to where the search stands. If
there is no closing edge, then each node that the search is done with leads only to nodes it was done with
before, so every way ends. -/
theorem cycleErrors_of_circles (params : List TypeParam) :
    (∃ edges, CircleSearches (boundPositions params) (List.range params.length)
        (List.range params.length) edges ∧
      cycleErrors params = edges.filterMap (cycleError params)) ∧
    (cycleErrors params ≠ [] ↔ ∃ i, Relation.TransGen (BoundedAt params) i i) ∧
    ∀ e ∈ cycleErrors params, ∃ i j q r, params[i]? = some q ∧ params[j]? = some r ∧
      e = ⟨.cyclicConstraint q.name r.name, q.span⟩ ∧ BoundedAt params i j ∧
      Relation.ReflTransGen (BoundedAt params) j i := by
  refine ⟨⟨_, circleSearches_closingEdges _ _, rfl⟩, ?_, fun e he => ?_⟩
  · rw [ne_eq, cycleErrors_eq_nil_iff, closingEdges_eq_nil_iff fun _ => boundPositions_eq_nil,
      edge_boundPositions, not_forall]
    simp only [not_not]
  · obtain ⟨⟨i, j⟩, hedge, herror⟩ := List.mem_filterMap.1 he
    obtain ⟨hbound, hback⟩ := mem_closingEdges hedge
    rw [edge_boundPositions] at hbound hback
    obtain ⟨q, r, hi, hj, -, -⟩ := id hbound
    simp only [cycleError, hi, hj, Option.some.injEq] at herror
    exact ⟨i, j, q, r, hi, hj, herror.symm, hbound, hback⟩

end Circles

/-! ## What is known of a type parameter -/

namespace Clause

variable {c : Clause} {q r : TypeParam} {name : String}

/-- The type parameter is bounded by a sibling. -/
def BoundedBy (c : Clause) (q r : TypeParam) : Prop :=
  r ∈ c.siblings ∧ q.Demands (.bound (.param r.name))

/-- The type parameter is bounded by an enclosing one, no sibling, of which something is filed. -/
def BoundedOutside (c : Clause) (q : TypeParam) (known : Capability → Bool) : Prop :=
  ∃ name, q.Demands (.bound (.param name)) ∧ (∀ s ∈ c.siblings, s.name ≠ name) ∧
    ∃ key v, c.outer.resolve name = some key ∧ c.caps.get? key = some v ∧ known v = true

/-- The clause says by itself that its parameter is a value type. -/
def DemandsValue (c : Clause) (q : TypeParam) : Prop :=
  q.Demands .valueType ∨ q.Demands .unmanaged ∨ c.BoundedOutside q Capability.isValue

/-- The clause says by itself that its parameter is a reference type. -/
def DemandsReference (c : Clause) (q : TypeParam) : Prop :=
  q.Demands .referenceType ∨
    (∃ name args, q.Demands (.bound (.named name args)) ∧
      (c.program.typeDecl? name).map TypeDecl.kind = some .classType) ∨
    c.BoundedOutside q Capability.isReference

theorem sibling?_eq_none_iff : c.sibling? name = none ↔ ∀ s ∈ c.siblings, s.name ≠ name := by
  simp [sibling?]

/-- Among siblings of distinct names, a name means the one that has it. -/
theorem sibling?_eq_some_iff (hnames : (c.siblings.map TypeParam.name).Nodup) :
    c.sibling? name = some r ↔ r ∈ c.siblings ∧ r.name = name := by
  constructor
  · exact fun h => ⟨List.mem_of_find?_eq_some h, by simpa using List.find?_some h⟩
  · rintro ⟨hr, rfl⟩
    cases hfound : c.sibling? r.name with
    | none => exact absurd rfl (sibling?_eq_none_iff.1 hfound r hr)
    | some s =>
      have hname : s.name = r.name := by simpa using List.find?_some hfound
      rw [List.inj_on_of_nodup_map hnames (List.mem_of_find?_eq_some hfound) hr hname]

/-- What is filed of the enclosing type parameters that bound a type parameter. -/
theorem any_outerBounds_iff {known : Capability → Bool} (hunknown : known .unknown = false) :
    (c.outerBounds q).any known = true ↔ c.BoundedOutside q known := by
  have hparam (name : String) : known (c.caps.ofParam c.outer name) = true ↔
      ∃ key v, c.outer.resolve name = some key ∧ c.caps.get? key = some v ∧ known v = true := by
    unfold Capabilities.ofParam
    cases c.outer.resolve name with
    | none => simp [hunknown]
    | some key => cases hkey : c.caps.get? key <;> simp [hkey, hunknown]
  simp only [outerBounds, List.any_eq_true, List.mem_map, List.mem_filter, Option.isNone_iff_eq_none,
    sibling?_eq_none_iff, TypeParam.mem_boundParams_iff, BoundedOutside]
  constructor
  · rintro ⟨_, ⟨name, ⟨hbound, hnone⟩, rfl⟩, hknown⟩
    exact ⟨name, hbound, hnone, (hparam name).1 hknown⟩
  · rintro ⟨name, hbound, hnone, hknown⟩
    exact ⟨_, ⟨name, ⟨hbound, hnone⟩, rfl⟩, (hparam name).2 hknown⟩

theorem saysValue_iff : c.saysValue q = true ↔ c.DemandsValue q := by
  have houter : (c.outerBounds q).any Capability.isValue = true ↔
      c.BoundedOutside q Capability.isValue := any_outerBounds_iff rfl
  simp only [saysValue, Bool.or_eq_true, TypeParam.has_iff, houter, or_assoc, DemandsValue]

theorem saysReference_iff : c.saysReference q = true ↔ c.DemandsReference q := by
  have houter : (c.outerBounds q).any Capability.isReference = true ↔
      c.BoundedOutside q Capability.isReference := any_outerBounds_iff rfl
  have hclass : (q.boundDecls.any fun name =>
      decide ((c.program.typeDecl? name).map TypeDecl.kind = some .classType)) = true ↔
        ∃ name args, q.Demands (.bound (.named name args)) ∧
          (c.program.typeDecl? name).map TypeDecl.kind = some .classType := by
    simp only [List.any_eq_true, TypeParam.mem_boundDecls_iff, decide_eq_true_eq, exists_and_right]
  simp only [saysReference, Bool.or_eq_true, TypeParam.has_iff, houter, hclass, DemandsReference]
  rw [or_assoc, or_comm (a := c.BoundedOutside q Capability.isReference)]

/-- The bounds of a sibling are those of the type parameter of its name. -/
theorem boundsOf_name (hnames : (c.siblings.map TypeParam.name).Nodup) (hr : r ∈ c.siblings) :
    c.boundsOf r.name = r.boundParams := by
  rw [boundsOf, (sibling?_eq_some_iff hnames).2 ⟨hr, rfl⟩]
  rfl

/-- The walk over bounds goes from a type parameter exactly to those that it is bounded by, however
indirectly.

**Proof sketch.** A sibling of a name that is entered is a bound of the one before. Conversely, a bound
of what was reached is the type parameter itself, which is not pending, or its name is entered at its own
turn or was before. -/
theorem mem_reached_iff (hnames : (c.siblings.map TypeParam.name).Nodup) (hq : q ∈ c.siblings) :
    r ∈ c.reached q ↔ Relation.ReflTransGen c.BoundedBy q r := by
  let pending := without (c.siblings.map TypeParam.name) q.name
  have hreached (r : TypeParam) : r ∈ c.reached q ↔
      r = q ∨ r ∈ c.siblings ∧ r.name ∈ preorder c.boundsOf pending q.boundParams := by
    simp only [reached, List.mem_cons, List.mem_filterMap, sibling?_eq_some_iff hnames]
    exact or_congr_right ⟨fun ⟨_, hmem, hr, hname⟩ => ⟨hr, hname ▸ hmem⟩,
      fun ⟨hr, hmem⟩ => ⟨_, hmem, hr, rfl⟩⟩
  rw [hreached]
  constructor
  · rintro (rfl | ⟨hr, hmem⟩)
    · exact .refl
    obtain ⟨first, hfirst, hpending, hpath⟩ := mem_preorder_iff.1 hmem
    -- Along the walk, siblings of the names that are entered are reached.
    have hway {name : String}
        (h : Relation.ReflTransGen (PendingStep c.boundsOf pending) first name) :
        ∀ s ∈ c.siblings, s.name = name → Relation.ReflTransGen c.BoundedBy q s := by
      induction h with
      | refl =>
        rintro s hs rfl
        exact .single ⟨hs, TypeParam.mem_boundParams_iff.1 hfirst⟩
      | @tail before _ hpath hstep ih =>
        rintro s hs rfl
        have hbefore : before ∈ pending := by
          rcases Relation.ReflTransGen.cases_tail hpath with heq | ⟨_, _, hlast⟩
          · exact heq ▸ hpending
          · exact hlast.2
        obtain ⟨t, ht, rfl⟩ := List.mem_map.1 (mem_without.1 hbefore).1
        have hbound := hstep.1
        rw [boundsOf_name hnames ht] at hbound
        exact (ih t ht rfl).tail ⟨hs, TypeParam.mem_boundParams_iff.1 hbound⟩
    exact hway hpath r hr rfl
  · intro hpath
    induction hpath with
    | refl => exact .inl rfl
    | @tail s r _ hstep ih =>
      obtain ⟨hr, hbound⟩ := hstep
      have hbound := TypeParam.mem_boundParams_iff.2 hbound
      refine (Classical.em (r = q)).imp_right fun hne => ⟨hr, ?_⟩
      have hpending : r.name ∈ pending := mem_without.2 ⟨List.mem_map_of_mem hr,
        fun hname => hne (List.inj_on_of_nodup_map hnames hr hq hname)⟩
      rcases ih with rfl | ⟨hs, hmem⟩
      · exact mem_preorder_of_mem_stack hbound hpending
      · exact mem_preorder_of_step hmem ⟨(boundsOf_name hnames hs).symm ▸ hbound, hpending⟩

/-- **Knowledge of type parameters.** Among siblings of distinct names, the recursion over the bounds of a
type parameter ends. The parameter is known to be a value type, or a reference type, exactly if some
clause that its bounds lead to says so by itself. Whether a stack-only type may be substituted for it is
said by its own clause alone. -/
theorem capability_of_bounds (c : Clause) (q : TypeParam)
    (hnames : (c.siblings.map TypeParam.name).Nodup) (hq : q ∈ c.siblings) :
    (∃ walk rest, Descent c.boundsOf (without (c.siblings.map TypeParam.name) q.name) q.boundParams
        walk rest ∧
      c.reached q = q :: walk.filterMap c.sibling?) ∧
    ((c.capability q).isValue = true ↔
      ∃ r, Relation.ReflTransGen c.BoundedBy q r ∧ c.DemandsValue r) ∧
    ((c.capability q).isReference = true ↔
      ∃ r, Relation.ReflTransGen c.BoundedBy q r ∧ c.DemandsReference r) ∧
    ((c.capability q).allowsByRefLike = true ↔
      q.Demands .allowsRefStruct ∧ ¬ q.Demands .referenceType) ∧
    (c.capability q).requiresRuntime = (c.capability q).allowsByRefLike := by
  obtain ⟨rest, hwalk⟩ := descent_preorder c.boundsOf
    (without (c.siblings.map TypeParam.name) q.name) q.boundParams
  refine ⟨⟨_, rest, hwalk, rfl⟩, ?_, ?_, ?_, rfl⟩
  · simp only [capability, List.any_eq_true, mem_reached_iff hnames hq, saysValue_iff]
  · simp only [capability, List.any_eq_true, mem_reached_iff hnames hq, saysReference_iff]
  · simp only [capability, TypeParam.hasAllowsMarker, Bool.and_eq_true, Bool.not_eq_true',
      ← Bool.not_eq_true, TypeParam.has_iff]

end Clause

/-! ### A diamond with a circle -/

namespace Casks

/-- A type parameter with some constraints. -/
def param (name : String) (kinds : List ConstraintKind) : TypeParam :=
  ⟨name, kinds.map fun kind => ⟨kind, .zero⟩, .zero⟩

/-- The type parameter from which two bounds lead to another one. -/
def top : TypeParam :=
  param "T" [.bound (.param "L"), .bound (.param "R"), .allowsRefStruct]

/-- The type parameter on one of the two ways. -/
def left : TypeParam := param "L" [.bound (.param "U")]

/-- The type parameter to which both lead. It is bounded by one of the type around. -/
def bottom : TypeParam := param "U" [.bound (.param "V")]

/-- A diamond of type parameters, with a way back to where it starts, in a type of which one type
parameter is known to be a value type. -/
def clause : Clause where
  program := ⟨[]⟩
  caps := Table.empty.keep ⟨"Cask", "V"⟩ .value
  siblings := [top, left, param "R" [.bound (.param "T"), .bound (.param "U")], bottom]
  outer := [⟨"Cask", ["V"]⟩]

/-- The type parameter of the type makes the one at the top a value type, since the bounds lead there.
A stack-only type may be substituted for it, as its own clause has the marker. -/
theorem capability_of_bounds_cask :
    (clause.siblings.map TypeParam.name).Nodup ∧ top ∈ clause.siblings ∧
      (clause.capability top).isValue = true ∧ (clause.capability top).allowsByRefLike = true := by
  have hnames : (clause.siblings.map TypeParam.name).Nodup := by decide
  have htop : top ∈ clause.siblings := List.mem_cons_self ..
  obtain ⟨-, hvalue, -, hallows, -⟩ := Clause.capability_of_bounds clause top hnames htop
  have hleft : clause.BoundedBy top left := ⟨by simp [clause], _, List.mem_cons_self .., rfl⟩
  have hbottom : clause.BoundedBy left bottom := ⟨by simp [clause], _, List.mem_cons_self .., rfl⟩
  have houtside : clause.BoundedOutside bottom Capability.isValue :=
    ⟨"V", ⟨_, List.mem_cons_self .., rfl⟩, by decide, ⟨"Cask", "V"⟩, .value, rfl, rfl, rfl⟩
  refine ⟨hnames, htop, hvalue.2 ⟨bottom, .tail (.single hleft) hbottom, .inr (.inr houtside)⟩,
    hallows.2 ⟨⟨⟨.allowsRefStruct, .zero⟩, by simp [top, param], rfl⟩, ?_⟩⟩
  rw [← TypeParam.has_iff]
  decide

end Casks

end StackEscape
