import StackEscape.Proofs.BodyOrdinary
import StackEscape.Proofs.Implementations

/-!
# Runs over ordinary programs

The rules for stack-only types refuse no ordinary code. If a program declares no stack-only type, mentions
and admits none, and never returns or re-points a reference, then whatever a run reports is a declaration
that contradicts itself or another one. The check of declarations files only capabilities of types that
may live on the heap, contracts are compared by their annotations alone, and the walks over all bodies
share tables in which nothing is stack-only.

## Main definitions

* `StackEscape.Declarations.State.IsOrdinary` — how far the check of declarations comes.
* `StackEscape.Tables.IsOrdinary` — tables in which nothing is stack-only.

## Main results

* `StackEscape.Program.IsOrdinary.checkDeclarations`, `checkMembers`,
  `StackEscape.Program.errorClass_of_mem_contractErrors` — the stages of a run.
* `StackEscape.Program.errorClass_of_isOrdinary` — every error of a run is a malformed declaration.
-/

set_option autoImplicit false

namespace StackEscape

/-! ## Capabilities of members -/

namespace Capabilities.HeapOnly

variable {p : Program} {c : Capabilities}

theorem keepAll (h : c.HeapOnly) (keys : List TypeParamKey) {v : Capability}
    (hv : v.isStackOnly = false) : (c.keepAll keys v).HeapOnly :=
  List.foldlRecOn keys _ h fun _ hd k _ => hd.keep k hv

/-- What a member takes over from the root of its chain may live on the heap. -/
theorem inherited (h : c.HeapOnly)
    (hp : ∀ m ∈ p.members, ∀ q ∈ m.decl.typeParams, q.hasAllowsMarker = false) (index : Nat)
    (pending : List String) {m : Member} (hm : m ∈ p.members) :
    (p.inherited c index pending m).1.isStackOnly = false := by
  fun_induction Program.inherited p c index pending m with
  | case1 => rfl
  | case2 pending m q hq v hv => exact h _ v hv
  | case3 pending m q hq hnone hpending base hbase v keys heq ih =>
    obtain ⟨_, -, hmember⟩ := Option.bind_eq_some_iff.1 hbase
    rw [heq] at ih
    exact ih (Covers.mem_of_member? hmember)
  | case4 pending m q hq => exact isStackOnly_capability _ (hp m hm q (List.mem_of_getElem? hq))
  | case5 => rfl

theorem fillMember (h : c.HeapOnly)
    (hp : ∀ m ∈ p.members, ∀ q ∈ m.decl.typeParams, q.hasAllowsMarker = false) {m : Member}
    (hm : m ∈ p.members) : (Declarations.fillMember p c m).HeapOnly := by
  unfold Declarations.fillMember
  split
  · exact List.foldlRecOn _ _ h fun _ hd i _ => hd.keepAll _ (hd.inherited hp i _ hm)
  · exact h.fillOwn p m.key (hp m hm) m.outerScope

end Capabilities.HeapOnly

/-! ## The check of declarations -/

/-- Nothing that is filed may be stack-only, and only malformed declarations were reported. -/
structure Declarations.State.IsOrdinary (s : Declarations.State) : Prop where
  /-- The type parameters that are filed. -/
  caps : s.caps.HeapOnly
  /-- The errors. -/
  errors : ∀ e ∈ s.errors, e.errorClass = .declarationContract

/-- Parts that disagree are malformed declarations. -/
theorem errorClass_of_mem_partialErrors {decl : String} {first other : List TypeParam} {e : TypeError}
    (he : e ∈ partialErrors decl first other) : e.errorClass = .declarationContract := by
  obtain ⟨x, -, hx⟩ := List.mem_filterMap.1 he
  dsimp only at hx
  split at hx
  · exact Option.some.inj hx ▸ rfl
  · simp at hx

namespace Declarations

variable {p : Program} {e : TypeError}

theorem errorClass_of_mem_typePartErrors {name : String} (he : e ∈ typePartErrors p name) :
    e.errorClass = .declarationContract := by
  unfold typePartErrors at he
  split at he
  · exact absurd he List.not_mem_nil
  · obtain ⟨part, -, he⟩ := List.mem_flatMap.1 he
    exact errorClass_of_mem_partialErrors he

theorem errorClass_of_mem_memberPartErrors {place : Place} {m : Member}
    (he : e ∈ memberPartErrors p place m) : e.errorClass = .declarationContract := by
  unfold memberPartErrors at he
  split at he
  · exact errorClass_of_mem_partialErrors he
  · exact absurd he List.not_mem_nil

/-- Where a member has a base, restated constraints and an unknown base are malformed declarations. -/
theorem errorClass_of_mem_memberClauseErrors {runtime : Bool} {place : Place} {m : Member}
    {base : MemberRef} (hbase : m.decl.base = some base)
    (he : e ∈ memberClauseErrors p runtime place m) : e.errorClass = .declarationContract := by
  simp only [memberClauseErrors, hbase] at he
  rcases List.mem_append.1 he with he | he
  · obtain ⟨q, -, hq⟩ := List.mem_filterMap.1 he
    obtain ⟨c, -, rfl⟩ := Option.map_eq_some_iff.1 hq
    rfl
  · split at he
    · exact absurd he List.not_mem_nil
    · exact List.mem_singleton.1 he ▸ rfl

end Declarations

namespace Program.IsOrdinary

open Declarations

variable {p : Program} (h : p.IsOrdinary) {s : State} {t : TypeDecl} {m : Member}

include h

/-- No type parameter of a type has the marker. -/
theorem unmarked_type (ht : t ∈ p.types) : ∀ q ∈ t.typeParams, q.hasAllowsMarker = false :=
  fun q hq => h.unmarked q (List.mem_append_left _ (List.mem_flatMap.2 ⟨t, ht, hq⟩))

/-- The types of fields are mentioned. -/
theorem field (ht : t ∈ p.types) {f : FieldDecl} (hf : f ∈ t.fields) : p.Declares f.ty := by
  refine h.mentions _ (List.mem_append_left _ (List.mem_flatMap.2 ⟨t, ht, ?_⟩))
  simp only [TypeDecl.mentioned, List.mem_append]
  exact .inr (.inr (.inr (.inl (List.mem_map_of_mem hf))))

omit h in
theorem report (hs : s.IsOrdinary) {errors : List TypeError}
    (herrors : ∀ e ∈ errors, e.errorClass = .declarationContract) : (s.report errors).IsOrdinary :=
  ⟨hs.caps, List.forall_mem_append.2 ⟨hs.errors, herrors⟩⟩

/-- A type is entered. -/
theorem enterType (hs : s.IsOrdinary) (ht : t ∈ p.types) : (Declarations.enterType p s t).IsOrdinary := by
  refine ⟨hs.caps.fillOwn p t.name (h.unmarked_type ht) [], (report hs ?_).errors⟩
  exact List.forall_mem_append.2 ⟨fun e he => errorClass_of_mem_typePartErrors he,
    fun e he => errorClass_of_mem_cycleErrors he⟩

/-- The clauses of a type have no marker, so nothing is wrong with them. -/
theorem checkTypeClauses (runtime : Bool) (hs : s.IsOrdinary) (ht : t ∈ p.types) :
    (t.typeParams.foldl (checkTypeClause runtime t.name) s).IsOrdinary := by
  refine List.foldlRecOn t.typeParams _ hs fun s hs q hq => ?_
  unfold checkTypeClause
  split
  · exact hs
  · rw [TypeParam.clauseErrors_eq_nil (h.unmarked_type ht q hq)]
    exact ⟨hs.caps, (report hs fun _ he => absurd he List.not_mem_nil).errors⟩

/-- Of a field, only a reference outside of a stack-only type is reported. -/
theorem fieldErrors (runtime : Bool) {caps : Capabilities} (hc : caps.HeapOnly) (g : GenericScope)
    (ht : t ∈ p.types) {f : FieldDecl} (hf : f ∈ t.fields) :
    ∀ e ∈ TypeEnv.fieldErrors ⟨p, caps, g, runtime⟩ t f, e.errorClass = .declarationContract := by
  have hty := h.field ht hf
  have hheap : TypeEnv.stackOnly ⟨p, caps, g, runtime⟩ f.ty = false :=
    TypeEnv.stackOnly_eq_false h hc hty
  intro e he
  rw [TypeEnv.fieldErrors, hheap, if_neg Bool.false_ne_true, List.append_nil,
    TypeEnv.typeErrors_eq_nil h hc f.span f.ty hty, List.append_nil] at he
  split at he
  · exact List.mem_singleton.1 he ▸ rfl
  · exact absurd he List.not_mem_nil

/-- Nothing is wrong with the types in a member's signature. -/
theorem signatureErrors_eq_nil (runtime : Bool) {caps : Capabilities} (hc : caps.HeapOnly)
    (hm : m ∈ p.members) : signatureErrors p runtime caps m = [] := by
  have hf := h.member hm
  refine List.append_eq_nil_iff.2 ⟨List.flatMap_eq_nil_iff.2 fun q hq => ?_, ?_⟩
  · exact TypeEnv.typeErrors_eq_nil h hc q.span q.ty (hf.param hq)
  · exact TypeEnv.typeErrors_eq_nil h hc m.decl.span m.decl.ret.ty hf.ret

/-- The clauses of a member may restate inherited ones, or have an unknown base. -/
theorem memberClauseErrors (runtime : Bool) (place : Place) (hm : m ∈ p.members) :
    ∀ e ∈ Declarations.memberClauseErrors p runtime place m, e.errorClass = .declarationContract := by
  intro e he
  cases hbase : m.decl.base with
  | some base => exact errorClass_of_mem_memberClauseErrors hbase he
  | none =>
    simp only [Declarations.memberClauseErrors, hbase] at he
    split at he
    · exact absurd he List.not_mem_nil
    · obtain ⟨q, hq, he⟩ := List.mem_flatMap.1 he
      rw [TypeParam.clauseErrors_eq_nil ((h.member hm).unmarked q hq)] at he
      exact absurd he List.not_mem_nil

/-- A member is checked. -/
theorem checkMemberDecl (runtime : Bool) (hs : s.IsOrdinary) (place : Place) (hm : m ∈ p.members) :
    (Declarations.checkMember p runtime s place m).IsOrdinary := by
  have hcaps : (fillMember p s.caps m).HeapOnly :=
    hs.caps.fillMember (fun n hn => (h.member hn).unmarked) hm
  have hclauses : ({ s.report (Declarations.memberClauseErrors p runtime place m) with
      caps := fillMember p s.caps m } : State).IsOrdinary :=
    ⟨hcaps, (report hs (h.memberClauseErrors runtime place hm)).errors⟩
  refine report hclauses (List.forall_mem_append.2 ⟨List.forall_mem_append.2
    ⟨fun e he => errorClass_of_mem_cycleErrors he, fun e he => errorClass_of_mem_memberPartErrors he⟩,
    fun e he => ?_⟩)
  have hnone := h.signatureErrors_eq_nil runtime hcaps hm
  exact absurd (hnone ▸ he) List.not_mem_nil

/-- A type part is checked. -/
theorem checkPart (runtime : Bool) (hs : s.IsOrdinary) (i : Nat) (ht : t ∈ p.types) :
    (Declarations.checkPart p runtime s i t).IsOrdinary := by
  have hclauses := h.checkTypeClauses runtime hs ht
  have hfields : ((t.typeParams.foldl (checkTypeClause runtime t.name) s).report (t.fields.flatMap
      (TypeEnv.fieldErrors ⟨p, (t.typeParams.foldl (checkTypeClause runtime t.name) s).caps,
        .push [] t.name t.typeParams, runtime⟩ t))).IsOrdinary := by
    refine report hclauses fun e he => ?_
    obtain ⟨f, hf, he⟩ := List.mem_flatMap.1 he
    exact h.fieldErrors runtime hclauses.caps _ ht hf e he
  refine List.foldlRecOn t.members.zipIdx _ hfields fun s hs x hx => ?_
  exact h.checkMemberDecl runtime hs (i, x.2)
    (Program.mem_members_iff.2 ⟨ht, List.fst_mem_of_mem_zipIdx hx⟩)

/-- **Declarations.** All that is wrong with the declarations is that they contradict each other. -/
theorem checkDeclarations (runtime : Bool) : (p.checkDeclarations runtime .empty).1.HeapOnly ∧
    ∀ e ∈ (p.checkDeclarations runtime .empty).2, e.errorClass = .declarationContract := by
  have hentered : ((firstParts [] p.types).foldl (Declarations.enterType p) ⟨.empty, [], []⟩).IsOrdinary :=
    List.foldlRecOn _ _ ⟨.empty, fun _ he => absurd he List.not_mem_nil⟩ fun s hs t ht =>
      h.enterType hs (firstParts_subset [] p.types ht)
  have hall := List.foldlRecOn p.types.zipIdx (fun s x => Declarations.checkPart p runtime s x.2 x.1) hentered
    fun s hs x hx => h.checkPart runtime hs x.2 (List.fst_mem_of_mem_zipIdx hx)
  exact ⟨hall.caps, hall.errors⟩

/-! ## Contracts -/

end Program.IsOrdinary

/-- **Contracts.** In every program, annotations that are misplaced or that are not repeated are
malformed declarations. -/
theorem Program.errorClass_of_mem_contractErrors {p : Program} {e : EscapeError}
    (he : e ∈ p.contractErrors) : e.errorClass = .declarationContract := by
  rcases List.mem_append.1 he with he | he
  · obtain ⟨m, -, he⟩ := List.mem_flatMap.1 he
    exact errorClass_of_mem_placementErrors he
  · rw [implementationErrors_eq_firsts] at he
    obtain ⟨c, -, -, rfl⟩ := Comparison.mem_errors_iff.1 he
    rfl

/-! ## Bodies -/

/-- Tables in which nothing is stack-only. -/
structure Tables.IsOrdinary (T : Tables) : Prop where
  /-- The type parameters that are filed. -/
  caps : T.caps.HeapOnly
  /-- The contracts that are filed. -/
  contracts : ∀ k c, T.contracts.get? k = some c → c.IsOrdinary

namespace Program

variable {p : Program} {T : Tables} {m : Member}

/-- The walk over a member ends in a state in which nothing is stack-only. -/
theorem IsOrdinary.walkMember (h : p.IsOrdinary) (runtime : Bool) (hT : T.IsOrdinary)
    (hm : m ∈ p.members) {body : List Stmt} (hbody : m.decl.body = some body) :
    (p.walkMember runtime T m body).IsOrdinary p := by
  have henv : Surroundings.IsOrdinary ⟨p, m, runtime⟩ := ⟨h, hm⟩
  have hsites : ∀ x ∈ Site.ofStmts (.ofMember m body) body, x.IsOrdinary p := fun x hx =>
    h.site hm (sites_eq_of_body hbody ▸ hx)
  -- The contract of the member is filed, whatever member of its key it was built for.
  have hblank : ({ ctx := ⟨[], []⟩, generics := m.innerScope, tables := T } : WalkState).IsOrdinary p :=
    ⟨hT.caps, hT.contracts, fun _ hs => absurd hs List.not_mem_nil,
      fun _ hs => absurd hs List.not_mem_nil, fun _ hf => absurd hf List.not_mem_nil,
      fun _ he => absurd he List.not_mem_nil⟩
  obtain ⟨hcontract, hfiled⟩ := hblank.obtain m.key
    (.build h hT.caps (h.member hm) m.owner m.key m.innerScope false)
  have hentry : (p.entry T m).IsOrdinary p :=
    hfiled.pushScope .method (List.forall_mem_singleton.2 ⟨(h.member hm).returns, hcontract.result⟩)
  have hwalk : Walk.Ordinary ⟨p, m, runtime⟩ (fun _ => True)
      (Walk.member ⟨p, m, runtime⟩ (p.entryContract T m) body) :=
    (Walk.Ordinary.bindParams henv false (fun _ hq => (h.member hm).param hq)
      hcontract.params).bind fun _ _ => (Walk.Ordinary.declareFunctions
        (Walk.Ordinary.direct hsites)).bind fun _ _ => Walk.Ordinary.checkStmts henv body hsites
  exact (hwalk _ hentry).1

/-- **Bodies.** From tables in which nothing is stack-only the walks over bodies lead to such tables, and
report nothing but malformed declarations. -/
theorem IsOrdinary.checkMembers (h : p.IsOrdinary) (runtime : Bool) (hT : T.IsOrdinary)
    {ms : List Member} (hms : ms ⊆ p.members) :
    ∀ e ∈ (p.checkMembers runtime T ms).1.errors, e.errorClass = .declarationContract := by
  let Kept (r : BodyResult × Tables) : Prop :=
    (∀ e ∈ r.1.errors, e.errorClass = .declarationContract) ∧ r.2.IsOrdinary
  suffices hall : Kept (p.checkMembers runtime T ms) from hall.1
  have hstart : Kept ({}, T) := ⟨fun _ he => absurd he List.not_mem_nil, hT⟩
  refine List.foldlRecOn ms _ hstart fun r hr m hm => ?_
  obtain ⟨herrors, htables⟩ := hr
  cases hbody : m.decl.body with
  | none =>
    simp only [checkMember_of_none hbody]
    exact ⟨List.forall_mem_append.2 ⟨herrors, fun _ he => absurd he List.not_mem_nil⟩, htables⟩
  | some body =>
    have hend := h.walkMember runtime htables (hms hm) hbody
    simp only [checkMember_of_some hbody]
    exact ⟨List.forall_mem_append.2 ⟨herrors, hend.errors⟩, hend.caps, hend.contracts⟩

/-- **Ordinary code.** If a program has nothing to do with the stack, then every error of a run, whatever
the options are, is one of a declaration that contradicts itself or another one.

**Proof sketch.** No clause has the marker, so no type parameter may be stack-only, and neither may any
type that is mentioned. Nothing else is read from a contract, a variable or an operand where a rule for
stack-only types applies; and no reference is returned or re-pointed. -/
theorem errorClass_of_isOrdinary (h : p.IsOrdinary) (options : Options) :
    (∀ e ∈ (p.analyze options).declarationErrors, e.errorClass = .declarationContract) ∧
      ∀ e ∈ (p.analyze options).escapeErrors, e.errorClass = .declarationContract := by
  obtain ⟨hcaps, hdeclarations⟩ := h.checkDeclarations options.runtimeSupport
  refine ⟨hdeclarations, List.forall_mem_append.2 ⟨fun _ => errorClass_of_mem_contractErrors, h.checkMembers _
    ⟨hcaps, fun k c hc => absurd hc (by simp)⟩ fun m hm => ?_⟩⟩
  exact (List.mem_filter.1 (List.mem_filter.1 hm).1).1

end Program

/-! ## An ordinary program -/

namespace Kilns

/-- A type that is declared under the name of a stack-only one. -/
def span : TypeDecl := ⟨1, "Span", .classType, false, false, [], [], [], [], [], .zero⟩

/-- The type of it. -/
def spanTy : TypeRef := .named "Span" []

/-- The pot of which the method is told. -/
def pot (id : NodeId) : Expr := ⟨id, .var "pot", spanTy, .zero⟩

/-- A method that may be suspended, captures its parameter, and calls a member that does not exist. -/
def fire : FnDecl :=
  ⟨3, "Fire", .method, { (default : Modifiers) with isAsync := true }, [],
    [⟨"pot", spanTy, .ref, false, [], .zero⟩], .nothing, [], none, none,
    some [⟨4, .expr ⟨5, .lambda ⟨[], spanTy, [⟨6, .ret (some (pot 7)), .zero⟩], false, false, false⟩,
        .object, .zero⟩, .zero⟩,
      ⟨8, .expr ⟨9, .call (some (pot 10)) ⟨spanTy, "Cool"⟩ [] [], .void, .zero⟩, .zero⟩],
    .zero⟩

/-- The type of the method. -/
def kiln : TypeDecl := ⟨2, "Kiln", .classType, false, false, [], [], [],
  [⟨"pots", .array spanTy, false, false, false, false, .zero⟩], [fire], .zero⟩

/-- The missing member is reported, and nothing else. -/
theorem errorClass_of_isOrdinary_kiln :
    let p : Program := ⟨[span, kiln]⟩
    p.IsOrdinary ∧
      (p.analyze {}).escapeErrors.map EscapeError.kind = [.unresolvedMember "Span.Cool"] ∧
      ∀ e ∈ (p.analyze {}).escapeErrors, e.errorClass = .declarationContract := by
  intro p
  have hp : p.IsOrdinary := by decide +kernel
  exact ⟨hp, by cbv, (Program.errorClass_of_isOrdinary hp {}).2⟩

end Kilns

end StackEscape
