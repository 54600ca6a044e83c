import StackEscape.Proofs.Filed

/-!
# Coverage of bodies

What it means that a walk covers some sites of a body: it reaches all of them, records their
expressions and no others, and if it ends without errors, then nothing was given up and nothing
flows out at them that does not live long enough.

## Main definitions

* `StackEscape.Inspection` — the surroundings of a walk and what it is measured against.
* `StackEscape.Inspection.Matches` — a state of the walk at a point of the body.
* `StackEscape.WalkState.Intact`, `Fresh` — nothing was given up so far, and expressions that were
  not recorded yet.
* `StackEscape.Covers` — a walk covers some sites.

## Main results

* `StackEscape.Covers.bind` — one walk after the other covers the sites of both.
* `StackEscape.Covers.inScope`, `inFunction`, `inLocalScope` — walks in scopes of their own.
* `StackEscape.Covers.expr`, `head` — what a node adds to the sites of its parts.

## Implementation notes

The errors and facts at the end are fixed in advance: a walk is only looked at when there are no
errors at the end, and then everything recorded on the way is still there. So what is known of a
part stays true without being carried from state to state. That all sites are reached is said
apart from the rest, since it has to be known before: contracts of local functions are used before
their declarations are checked.
-/

set_option autoImplicit false

namespace StackEscape

/-! ## States at a point -/

/-- The surroundings of a walk, and what it is measured against. -/
structure Inspection where
  /-- The surroundings. -/
  env : Surroundings
  /-- The capabilities of type parameters by their declarations. -/
  caps : Capabilities
  /-- The facts at the end. -/
  facts : Facts
  /-- Are keys distinct, and have local functions no type parameters? -/
  strict : Prop

namespace Inspection

/-- What types mean in the body. -/
def types (I : Inspection) : TypeEnv := I.env.types I.caps

/-- What is assumed of the program. -/
structure Sound (I : Inspection) : Prop where
  /-- The walked member is one of the program. -/
  mem : I.env.member ∈ I.env.program.members
  /-- Positional patterns have component types for all their parts. -/
  regular : ∀ x ∈ I.env.member.sites, x.IsRegular
  /-- Annotations are well placed. -/
  placed : I.env.WellPlaced
  /-- Local functions have no type parameters. -/
  plain : I.strict → ∀ d ∈ I.env.member.localFunctions, d.typeParams = []
  /-- Keys are distinct. -/
  keys : I.strict → I.env.program.DistinctKeys

/-- The state is one at the point. -/
structure Matches (I : Inspection) (a : Point) (s : WalkState) : Prop where
  /-- It is within the body. -/
  placed : s.Placed I.env
  /-- There is a scope to declare variables in. -/
  enclosed : s.ctx.scopes ≠ []
  /-- The local functions of the point are visible. -/
  functions : ∀ name, s.ctx.localFunction name = a.localFunction? name
  /-- The innermost function returns as that of the point does. -/
  function : ∃ f, s.ctx.function = some f ∧ f.returnsByRef = a.returnsByRef ∧
    (I.strict → f.returnsStackOnly = I.types.stackOnly a.retTy)
  /-- No receiver was given up. -/
  receivers : ∀ f ∈ s.ctx.frames, ∀ pair, f.thisPair = some pair → pair.isInvalid = false
  /-- The filed contracts are valid. -/
  valid : s.tables.Valid
  /-- The filed contracts are those of the declarations. -/
  tables : I.strict → s.tables.Exact I.env.program I.caps

end Inspection

namespace WalkState

/-- Neither a variable nor a recorded expression was given up. -/
structure Intact (s : WalkState) : Prop where
  /-- No variable was given up. -/
  locals : ∀ scope ∈ s.ctx.scopes, ∀ info ∈ scope.locals, info.pair.isInvalid = false
  /-- No recorded expression was given up. -/
  facts : ∀ id pair, s.facts.pair? id = some pair → pair.isInvalid = false

/-- The identifiers are distinct, and nothing is recorded for them yet. -/
structure Fresh (s : WalkState) (ids : List NodeId) : Prop where
  /-- They are distinct. -/
  nodup : ids.Nodup
  /-- Nothing is recorded for them. -/
  unrecorded : ∀ id ∈ ids, s.facts.pair? id = none

end WalkState

/-- Everything recorded in the first facts is recorded in the second. -/
def Facts.Within (f g : Facts) : Prop := ∀ id pair, f.pair? id = some pair → g.pair? id = some pair

/-- The site was reached: its expression is recorded, and its local function has well placed
annotations. -/
structure Site.Reached (env : Surroundings) (s : WalkState) (x : Site) : Prop where
  /-- The expression that is walked there is recorded. -/
  recorded : ∀ id, x.visitedId? = some id → (s.facts.pair? id).isSome
  /-- The local function that is declared there has well placed annotations. -/
  placed : ∀ d, x.localFunction? = some d →
    placementErrors env.member.owner d (env.localKey d) true = []

/-- The walk covers the sites. If something is known before, then it yields answers with the stated
property. -/
structure Covers (I : Inspection) {α : Type} (a : Point) (pre : Prop) (xs : List Site)
    (Q : α → Prop) (m : Walk α) : Prop where
  /-- It is proper. -/
  proper : xs ⊆ I.env.member.sites → m.Proper I.env
  /-- It reaches the sites, if there is no error at the end. -/
  reaches : xs ⊆ I.env.member.sites → (∀ x ∈ I.env.member.sites, x.IsRegular) →
    ∀ s : WalkState, s.Placed I.env → (m.after s).errors = [] →
      ∀ x ∈ xs, x.Reached I.env (m.after s)
  /-- It records no other expressions. -/
  frame : xs ⊆ I.env.member.sites → ∀ s : WalkState, s.Placed I.env →
    ∀ id, id ∉ Site.visitedIds xs → (m.after s).facts.pair? id = s.facts.pair? id
  /-- If there is no error at the end, nothing was given up and nothing escapes. -/
  run : xs ⊆ I.env.member.sites → I.Sound → pre → ∀ s : WalkState, I.Matches a s → s.Intact →
    s.Fresh (Site.visitedIds xs) → (m.after s).errors = [] →
      (m.after s).facts.Within I.facts →
        Q (m.answer s) ∧ (m.after s).Intact ∧
          (I.strict → ∀ x ∈ xs, x.Respects I.env I.caps I.facts)

namespace Inspection.Matches

variable {I : Inspection} {a : Point} {s t : WalkState}

/-- The tables of a state at a point stay valid and exact. -/
theorem tables_of_steps (hI : I.Sound) (h : I.Matches a s)
    (hsteps : Relation.ReflTransGen I.env.TableStep s.tables t.tables) :
    t.tables.Valid ∧ (I.strict → t.tables.Exact I.env.program I.caps) :=
  ⟨h.valid.steps hI.placed hsteps,
    fun hs => (h.tables hs).steps (hI.keys hs) hI.mem (hI.plain hs) hsteps⟩

/-- A later state is one at the same point. -/
theorem later (hI : I.Sound) (h : I.Matches a s) (hp : s.Progress I.env t) : I.Matches a t := by
  obtain ⟨infos, hc⟩ := hp.context
  obtain ⟨hv, he⟩ := h.tables_of_steps hI hp.tables
  have hframes : t.ctx.frames = s.ctx.frames := by rw [hc, Context.frames_declareAll]
  refine ⟨hp.placed h.placed, hp.scopes_ne_nil h.enclosed, ?_, ?_, ?_, hv, he⟩
  · intro name
    rw [hc, Context.localFunction_declareAll, h.functions]
  · simpa only [Context.function, hframes] using h.function
  · rw [hframes]
    exact h.receivers

/-- What types mean in the state is what they mean in the body. -/
theorem stackOnly_eq (hI : I.Sound) (h : I.Matches a s) (hs : I.strict) :
    (s.types I.env).stackOnly = I.types.stackOnly := by
  have hres := h.placed.generics.resolve_eq (hI.plain hs)
  have hstack := Capabilities.stackOnly_of_resolve I.caps I.env.program hres
  funext ty
  change s.tables.caps.stackOnly I.env.program s.generics ty = _
  rw [(h.tables hs).caps_eq, hstack]
  rfl

/-- What a reference means in the state is what it means at the point. -/
theorem target?_eq (h : I.Matches a s) (r : MemberRef) : s.target? I.env r = a.target? I.env r := by
  unfold WalkState.target?
  rw [h.functions]
  rfl

/-- A new scope is at the same point. -/
theorem pushScope (h : I.Matches a s) {kind : ScopeKind} :
    I.Matches a { s with ctx := s.ctx.pushScope kind } :=
  ⟨h.placed.pushScope kind s.ctx.frames, List.cons_ne_nil _ _, h.functions, h.function, h.receivers,
    h.valid, h.tables⟩

/-- A new function is at a point with its own return. -/
theorem inFunction (h : I.Matches a s) (kind : ScopeKind) {frame : FunctionFrame} {byRef : Bool}
    {ty : TypeRef} (href : frame.returnsByRef = byRef)
    (hstack : I.strict → frame.returnsStackOnly = I.types.stackOnly ty)
    (hthis : ∀ pair, frame.thisPair = some pair → pair.isInvalid = false) :
    I.Matches ⟨a.functions, byRef, ty⟩ (s.inFunction kind frame) := by
  refine ⟨h.placed.pushScope kind (frame :: s.ctx.frames), List.cons_ne_nil _ _, h.functions,
    ⟨frame, rfl, href, hstack⟩, ?_, h.valid, h.tables⟩
  intro f hf pair hp
  rcases List.mem_cons.1 hf with rfl | hf
  · exact hthis pair hp
  · exact h.receivers f hf pair hp

/-- With the local functions of a block declared, the state is one inside of the block. -/
theorem withFunctions (h : I.Matches a s) {stmts : List Stmt}
    (hd : ∀ d ∈ directFunctions stmts, d ∈ I.env.member.localFunctions) :
    I.Matches (a.block stmts) (s.withFunctions stmts) := by
  have hframes : (s.withFunctions stmts).ctx.frames = s.ctx.frames :=
    s.ctx.frames_declareFunctions _
  refine ⟨h.placed.declareFunctions hd, ?_, ?_, ?_, ?_, h.valid, h.tables⟩
  · rw [WalkState.withFunctions, Context.declareFunctions_eq]
    exact Context.scopes_modifyTop_ne_nil h.enclosed _
  · intro name
    rw [WalkState.withFunctions, Context.localFunction_declareFunctions h.enclosed, h.functions]
    simp only [Point.localFunction?, Point.block, List.findSome?_cons]
    cases (directFunctions stmts).reverse.find? fun d => decide (d.name = name) <;> rfl
  · obtain ⟨f, hf, hreturns⟩ := h.function
    exact ⟨f, by rw [Context.function, hframes]; exact hf, hreturns⟩
  · rw [hframes]
    exact h.receivers

end Inspection.Matches

namespace WalkState.Intact

variable {s : WalkState}

theorem pushScope (h : s.Intact) (kind : ScopeKind) (frames : List FunctionFrame) :
    WalkState.Intact { s with ctx := (⟨s.ctx.scopes, frames⟩ : Context).pushScope kind } := by
  refine ⟨fun scope hmem info hinfo => ?_, h.facts⟩
  rcases List.mem_cons.1 hmem with rfl | hmem
  · simp at hinfo
  · exact h.locals scope hmem info hinfo

theorem withFunctions (h : s.Intact) (stmts : List Stmt) : (s.withFunctions stmts).Intact := by
  refine ⟨fun scope hmem info hinfo => ?_, h.facts⟩
  simp only [WalkState.withFunctions, Context.declareFunctions_eq] at hmem
  rcases Context.mem_scopes_modifyTop hmem with ⟨top, htop, rfl⟩ | hmem
  · exact h.locals top htop info hinfo
  · exact h.locals scope hmem info hinfo

theorem leave (h : s.Intact) : s.leave.Intact := by
  refine ⟨fun scope hmem info hinfo => ?_, h.facts⟩
  rw [WalkState.leave, Context.scopes_popScope] at hmem
  exact h.locals scope (List.mem_of_mem_tail hmem) info hinfo

end WalkState.Intact

/-! ## Composition -/

namespace Covers

variable {I : Inspection} {α β : Type} {a : Point} {pre pre' : Prop} {xs ys : List Site}
  {Q Q' : α → Prop} {R : β → Prop}

/-- A walk that does nothing covers no sites. -/
theorem pure {x : α} (h : pre → Q x) : Covers I a pre [] Q (Pure.pure x : Walk α) where
  proper _ := .pure x
  reaches _ _ _ _ _ := by simp
  frame _ _ _ _ _ := rfl
  run _ _ hpre _ _ hi _ _ _ := ⟨h hpre, hi, by simp⟩

/-- More may be known before, and less be asked after. -/
theorem imp {m : Walk α} (h : Covers I a pre xs Q m) (hpre : pre' → pre)
    (hQ : ∀ x, pre' → Q x → Q' x) : Covers I a pre' xs Q' m where
  proper := h.proper
  reaches := h.reaches
  frame := h.frame
  run hx hI hp s hm hi hf he hw := by
    obtain ⟨hq, hrest⟩ := h.run hx hI (hpre hp) s hm hi hf he hw
    exact ⟨hQ _ hp hq, hrest⟩

/-- More may be known before. -/
theorem given {m : Walk α} (h : Covers I a pre xs Q m) (hpre : pre' → pre) :
    Covers I a pre' xs Q m := h.imp hpre fun _ _ hq => hq

/-- Less may be asked after. -/
theorem weaken {m : Walk α} (h : Covers I a pre xs Q m) (hQ : ∀ x, pre → Q x → Q' x) :
    Covers I a pre xs Q' m := h.imp id hQ

/-- One walk after the other covers the sites of both. -/
theorem bind {m : Walk α} {f : α → Walk β} (hm : Covers I a pre xs Q m)
    (hf : ∀ x, Covers I a (pre ∧ Q x) ys R (f x)) : Covers I a pre (xs ++ ys) R (m >>= f) where
  proper hsub :=
    (hm.proper (List.append_subset.1 hsub).1).bind
      fun x => (hf x).proper (List.append_subset.1 hsub).2
  reaches hsub hreg s hs he x hx := by
    obtain ⟨hxs, hys⟩ := List.append_subset.1 hsub
    have hp := (hm.proper hxs).progress s hs
    have hp' := ((hf (m.answer s)).proper hys).progress _ (hp.placed hs)
    rw [Walk.after_bind] at he ⊢
    rcases List.mem_append.1 hx with hx | hx
    · have hr := hm.reaches hxs hreg s hs (hp'.errors_eq_nil he) x hx
      exact ⟨fun id hid => hp'.recorded id (hr.recorded id hid), hr.placed⟩
    · exact (hf _).reaches hys hreg _ (hp.placed hs) he x hx
  frame hsub s hs id hid := by
    obtain ⟨hxs, hys⟩ := List.append_subset.1 hsub
    have hp := (hm.proper hxs).progress s hs
    rw [Site.visitedIds_append, List.mem_append, not_or] at hid
    rw [Walk.after_bind, (hf _).frame hys _ (hp.placed hs) id hid.2, hm.frame hxs s hs id hid.1]
  run hsub hI hpre s hs hi hfresh he hw := by
    obtain ⟨hxs, hys⟩ := List.append_subset.1 hsub
    have hp := (hm.proper hxs).progress s hs.placed
    have hp' := ((hf (m.answer s)).proper hys).progress _ (hp.placed hs.placed)
    rw [Site.visitedIds_append] at hfresh
    obtain ⟨hndx, hndy, hdisj⟩ := List.nodup_append.1 hfresh.nodup
    rw [Walk.after_bind] at he hw ⊢
    -- The expressions of the second part are not recorded by the first.
    have hfresh' : (m.after s).Fresh (Site.visitedIds ys) := by
      refine ⟨hndy, fun id hid => ?_⟩
      rw [hm.frame hxs s hs.placed id fun hid' => hdisj id hid' id hid rfl]
      exact hfresh.unrecorded id (List.mem_append_right _ hid)
    -- So the second part leaves all records of the first as they are.
    have hwithin : (m.after s).facts.Within I.facts := by
      intro id pair hid
      refine hw id pair ?_
      rw [(hf _).frame hys _ (hp.placed hs.placed) id]
      · exact hid
      · intro hmem
        rw [hfresh'.unrecorded id hmem] at hid
        exact absurd hid (by simp)
    obtain ⟨hq, hi', hrx⟩ := hm.run hxs hI hpre s hs hi
      ⟨hndx, fun id hid => hfresh.unrecorded id (List.mem_append_left _ hid)⟩
      (hp'.errors_eq_nil he) hwithin
    obtain ⟨hr, hi'', hry⟩ := (hf _).run hys hI ⟨hpre, hq⟩ _ (hs.later hI hp) hi' hfresh' he hw
    refine ⟨hr, hi'', fun hst x hx => ?_⟩
    rcases List.mem_append.1 hx with hx | hx
    · exact hrx hst x hx
    · exact hry hst x hx

/-- A walk and then one that covers no sites. -/
theorem bind_nil {m : Walk α} {f : α → Walk β} (hm : Covers I a pre xs Q m)
    (hf : ∀ x, Covers I a (pre ∧ Q x) [] R (f x)) : Covers I a pre xs R (m >>= f) := by
  have h := hm.bind hf
  rwa [List.append_nil] at h

/-- A walk that covers no sites and then another one. -/
theorem nil_bind {m : Walk α} {f : α → Walk β} (hm : Covers I a pre [] Q m)
    (hf : ∀ x, Covers I a (pre ∧ Q x) ys R (f x)) : Covers I a pre ys R (m >>= f) := hm.bind hf

/-- A walk of which the answer is not used. -/
theorem discard {m : Walk α} (h : Covers I a pre xs Q m) :
    Covers I a pre xs (fun _ => ∃ x, Q x) (Functor.discard m) :=
  h.bind_nil fun x => .pure fun h => ⟨x, h.2⟩

/-- A block without local functions is at the same point. -/
theorem atBlock {m : Walk α} (h : Covers I a pre xs Q m) :
    Covers I (a.block []) pre xs Q m where
  proper := h.proper
  reaches := h.reaches
  frame := h.frame
  run hsub hI hpre s hs :=
    h.run hsub hI hpre s
      ⟨hs.placed, hs.enclosed, hs.functions, hs.function, hs.receivers, hs.valid, hs.tables⟩

/-- A walk may look at the state, but must not tell alike states apart. -/
theorem look {k : WalkState → Walk α}
    (same : I.env.Apart → ∀ s t : WalkState, s.Alike I.env t → k s = k t)
    (hk : ∀ s : WalkState, s.Placed I.env →
      Covers I a (pre ∧ I.Sound ∧ I.Matches a s ∧ s.Intact) xs Q (k s)) :
    Covers I a pre xs Q (get >>= k) where
  proper hsub := .look same fun s hs => (hk s hs).proper hsub
  reaches hsub hreg s hs := (hk s hs).reaches hsub hreg s hs
  frame hsub s hs := (hk s hs).frame hsub s hs
  run hsub hI hpre s hs hi := (hk s hs.placed).run hsub hI ⟨hpre, hI, hs, hi⟩ s hs hi

/-! ## Steps without sites -/

/-- A proper walk that only reports, notes, files or obtains. -/
theorem ofProper {m : Walk α} (hm : m.Proper I.env)
    (hfacts : ∀ s, (m.after s).facts.pairs = s.facts.pairs)
    (hctx : ∀ s, (m.after s).ctx = s.ctx)
    (hQ : I.Sound → pre → ∀ s, I.Matches a s → (m.after s).errors = [] → Q (m.answer s)) :
    Covers I a pre [] Q m where
  proper _ := hm
  reaches _ _ _ _ _ := by simp
  frame _ s _ id _ := by simp only [Facts.pair?, hfacts]
  run _ hI hpre s hs hi _ he _ := by
    refine ⟨hQ hI hpre s hs he, ⟨by rw [hctx]; exact hi.locals, ?_⟩, by simp⟩
    intro id pair hid
    exact hi.facts id pair (by simpa only [Facts.pair?, hfacts] using hid)

/-- If there is no error at the end, none was reported. -/
theorem reportAll (errors : List EscapeError) :
    Covers I a pre [] (fun _ => errors = []) (Walk.reportAll errors) :=
  ofProper (.reportAll errors) (fun _ => rfl) (fun _ => rfl) fun _ _ s _ he =>
    (List.append_eq_nil_iff.1 (show s.errors ++ errors = [] from he)).2

/-- If there is no error at the end, none was reported. -/
theorem report (kind : EscapeErrorKind) (span : Span) :
    Covers I a pre [] (fun _ => False) (Walk.report kind span) :=
  (reportAll [⟨kind, span⟩]).weaken fun _ _ h => by simp at h

theorem recordNullTest (id : NodeId) (test : NullTest) :
    Covers I a pre [] (fun _ => True) (Walk.recordNullTest id test) :=
  ofProper (.recordNullTest id test) (fun _ => rfl) (fun _ => rfl) fun _ _ _ _ _ => trivial

theorem noteCopy (span : Span) : Covers I a pre [] (fun _ => True) (Walk.noteCopy span) :=
  ofProper (.noteCopy span) (fun _ => rfl) (fun _ => rfl) fun _ _ _ _ _ => trivial

theorem fileTypeParams {d : FnDecl} (hd : d ∈ I.env.member.localFunctions) :
    Covers I a pre [] (fun _ => True) (Walk.fileTypeParams I.env d) :=
  ofProper (.fileTypeParams hd) (fun _ => rfl) (fun _ => rfl) fun _ _ _ _ _ => trivial

/-- The contract of a member is valid, and the one its declaration says. -/
theorem memberContract {m : Member} (hm : m ∈ I.env.program.members) :
    Covers I a pre []
      (fun c => c.valid = true ∧ (I.strict → c = Contract.ofMember I.caps I.env.program m))
      (Walk.memberContract I.env m) := by
  refine ofProper (.memberContract hm) (fun _ => rfl) (fun _ => rfl) fun hI _ s hs _ => ⟨?_, ?_⟩
  · exact (hs.valid.obtain _ (Contract.valid_build (hI.placed.members m hm))).1
  · exact fun hst => ((hs.tables hst).obtainMember (hI.keys hst) hm).1

/-- The contract of a local function is valid, and the one its declaration says. -/
theorem localContract {d : FnDecl} (hd : d ∈ I.env.member.localFunctions) :
    Covers I a pre []
      (fun c => c.valid = true ∧
        (I.strict → c = I.env.member.localContract I.caps I.env.program d))
      (Walk.localContract I.env d) := by
  refine ofProper (.localContract hd) (fun _ => rfl) (fun _ => rfl) fun hI _ s hs _ => ⟨?_, ?_⟩
  · exact (hs.valid.obtain _ (Contract.valid_build (hI.placed.locals d hd))).1
  · intro hst
    have hbuilt := hs.placed.generics.build_eq (hI.plain hst) s.tables.caps hd
    exact ((hs.tables hst).obtainLocal (hI.keys hst) hI.mem hd
      (hbuilt.trans (by rw [(hs.tables hst).caps_eq]))).1

/-- A variable that is declared was not given up. -/
theorem declare {info : LocalInfo} (h : pre → info.pair.isInvalid = false) :
    Covers I a pre [] (fun _ => True) (Walk.declare info) where
  proper _ := .declare info
  reaches _ _ _ _ _ := by simp
  frame _ _ _ _ _ := rfl
  run _ _ hpre s _ hi _ _ _ := by
    refine ⟨trivial, ⟨?_, hi.facts⟩, by simp⟩
    intro scope hmem x hx
    change scope ∈ (s.ctx.declare info).scopes at hmem
    rcases Context.mem_scopes_modifyTop hmem with ⟨top, htop, rfl⟩ | hmem
    · rcases List.mem_append.1 hx with hx | hx
      · exact hi.locals top htop x hx
      · obtain rfl := List.mem_singleton.1 hx
        exact h hpre
    · exact hi.locals scope hmem x hx

/-! ## Nodes -/

/-- A walk that always ends with an error covers whatever sites it does not record beyond. -/
theorem fails {m : Walk α} (hp : m.Proper I.env) (he : ∀ s, (m.after s).errors ≠ [])
    (hf : ∀ (s : WalkState) (id : NodeId), id ∉ Site.visitedIds xs →
      (m.after s).facts.pair? id = s.facts.pair? id) : Covers I a pre xs Q m where
  proper _ := hp
  reaches _ _ s _ h := absurd h (he s)
  frame _ s _ := hf s
  run _ _ _ s _ _ _ h := absurd h (he s)

/-- An expression is recorded after its parts were walked. -/
theorem expr {e : Expr} {m : Walk ScopePair}
    (hm : Covers I a pre xs
      (fun pair => pair.isInvalid = false ∧
        (I.strict → Site.Respects I.env I.caps I.facts ⟨a, .expr e⟩)) m) :
    Covers I a pre (⟨a, .expr e⟩ :: xs)
      (fun pair => pair.isInvalid = false ∧ I.facts.pair? e.id = some pair)
      (m >>= fun pair => Walk.record e.id pair >>= fun _ => Pure.pure pair) := by
  let end_ (s : WalkState) : WalkState :=
    { m.after s with facts := (m.after s).facts.record e.id (m.answer s) }
  have hget (s : WalkState) (id : NodeId) : (end_ s).facts.pair? id =
      if id = e.id then some (m.answer s) else (m.after s).facts.pair? id := Table.get?_set _ _ _ _
  have hproper (hsub : xs ⊆ I.env.member.sites) :
      (m >>= fun pair => Walk.record e.id pair >>= fun _ => Pure.pure pair).Proper I.env :=
    (hm.proper hsub).bind fun pair => (Walk.Proper.record e.id pair).bind fun _ => .pure pair
  refine ⟨fun hsub => hproper (List.cons_subset.1 hsub).2, ?_, ?_, ?_⟩
  · intro hsub hreg s hs he x hx
    have hxs := (List.cons_subset.1 hsub).2
    have hplaced := ((hm.proper hxs).progress s hs).placed hs
    rcases List.mem_cons.1 hx with rfl | hx
    · refine ⟨fun id hid => ?_, by simp [Site.localFunction?]⟩
      obtain rfl : e.id = id := Option.some.inj hid
      change ((end_ s).facts.pair? e.id).isSome
      rw [hget, if_pos rfl]
      rfl
    · have hr := hm.reaches hxs hreg s hs he x hx
      exact ⟨fun id hid => ((Walk.Proper.record e.id (m.answer s)).progress _ hplaced).recorded id
        (hr.recorded id hid), hr.placed⟩
  · intro hsub s hs id hid
    obtain ⟨hne, hid⟩ := not_or.1 (mt List.mem_cons.2 hid)
    change (end_ s).facts.pair? id = _
    rw [hget, if_neg hne, hm.frame (List.cons_subset.1 hsub).2 s hs id hid]
  · intro hsub hI hpre s hs hi hfresh he hw
    have hxs := (List.cons_subset.1 hsub).2
    obtain ⟨hnot, hnd⟩ := List.nodup_cons.1 hfresh.nodup
    have hnone : (m.after s).facts.pair? e.id = none := by
      rw [hm.frame hxs s hs.placed e.id hnot]
      exact hfresh.unrecorded e.id (List.mem_cons_self ..)
    have hwithin : (m.after s).facts.Within I.facts := by
      intro id pair hid
      have hne : id ≠ e.id := fun h => by rw [h, hnone] at hid; exact absurd hid (by simp)
      refine hw id pair ?_
      change (end_ s).facts.pair? id = _
      rw [hget, if_neg hne, hid]
    obtain ⟨⟨hvalid, hrespects⟩, hi', hr⟩ := hm.run hxs hI hpre s hs hi
      ⟨hnd, fun id hid => hfresh.unrecorded id (List.mem_cons_of_mem _ hid)⟩ he hwithin
    refine ⟨⟨hvalid, hw e.id _ ?_⟩, ⟨hi'.locals, ?_⟩, ?_⟩
    · change (end_ s).facts.pair? e.id = _
      rw [hget, if_pos rfl]
      rfl
    · intro id pair hid
      change (end_ s).facts.pair? id = _ at hid
      rw [hget] at hid
      split at hid
      · obtain rfl := Option.some.inj hid
        exact hvalid
      · exact hi'.facts id pair hid
    · intro hst x hx
      rcases List.mem_cons.1 hx with rfl | hx
      · exact hrespects hst
      · exact hr hst x hx

/-- A node that is no expression adds its own site to those of its parts. -/
theorem head {x : Site} {m : Walk α} (hid : x.visitedId? = none)
    (hplaced : x :: xs ⊆ I.env.member.sites → ∀ s : WalkState, s.Placed I.env →
      (m.after s).errors = [] → ∀ d, x.localFunction? = some d →
        placementErrors I.env.member.owner d (I.env.localKey d) true = [])
    (hm : Covers I a pre xs (fun y => Q y ∧ (I.strict → x.Respects I.env I.caps I.facts)) m) :
    Covers I a pre (x :: xs) Q m := by
  have hids : Site.visitedIds (x :: xs) = Site.visitedIds xs := by
    simp [Site.visitedIds, hid]
  refine ⟨fun hsub => hm.proper (List.cons_subset.1 hsub).2, ?_, ?_, ?_⟩
  · intro hsub hreg s hs he y hy
    rcases List.mem_cons.1 hy with rfl | hy
    · exact ⟨by simp [hid], hplaced hsub s hs he⟩
    · exact hm.reaches (List.cons_subset.1 hsub).2 hreg s hs he y hy
  · rw [hids]
    exact fun hsub => hm.frame (List.cons_subset.1 hsub).2
  · rw [hids]
    intro hsub hI hpre s hs hi hfresh he hw
    obtain ⟨⟨hq, hx⟩, hi', hr⟩ := hm.run (List.cons_subset.1 hsub).2 hI hpre s hs hi hfresh he hw
    refine ⟨hq, hi', fun hst y hy => ?_⟩
    rcases List.mem_cons.1 hy with rfl | hy
    · exact hx hst
    · exact hr hst y hy

/-- What follows a test is only done if the test succeeds; if it fails, there is an error. -/
theorem guarded {m : Walk Bool} {w : Walk α} {y : α} (hm : Covers I a pre [] (fun b => b = true) m)
    (herr : ∀ s, m.answer s = false → (m.after s).errors ≠ [])
    (hw : Covers I a pre xs Q w) :
    Covers I a pre xs Q (m >>= fun b => if b = true then w else Pure.pure y) := by
  have h : Covers I a pre xs Q (m >>= fun _ => w) :=
    hm.nil_bind fun _ => hw.given And.left
  -- After a test that succeeds it is as if there were no test.
  have htrue {s : WalkState} (hs : m.answer s = true) :
      (m >>= fun b => if b = true then w else Pure.pure y).run s = (m >>= fun _ => w).run s := by
    change (if m.answer s = true then w else Pure.pure y) (m.after s) = w (m.after s)
    rw [if_pos hs]
  have hfalse {s : WalkState} (hs : m.answer s = false) :
      (m >>= fun b => if b = true then w else Pure.pure y).after s = m.after s := by
    change (((if m.answer s = true then w else Pure.pure y) : Walk α) (m.after s)).2 = m.after s
    rw [hs]
    rfl
  have hafter {s : WalkState} (hs : m.answer s = true) :
      (m >>= fun b => if b = true then w else Pure.pure y).after s = (m >>= fun _ => w).after s :=
    congrArg Prod.snd (htrue hs)
  have hanswer {s : WalkState} (hs : m.answer s = true) :
      (m >>= fun b => if b = true then w else Pure.pure y).answer s =
        (m >>= fun _ => w).answer s := congrArg Prod.fst (htrue hs)
  refine ⟨fun hsub => (hm.proper (List.nil_subset _)).bind fun b => ?_, ?_, ?_, ?_⟩
  · split
    · exact hw.proper hsub
    · exact .pure y
  · intro hsub hreg s hs he
    cases hb : m.answer s with
    | true =>
      rw [hafter hb] at he ⊢
      exact h.reaches hsub hreg s hs he
    | false =>
      rw [hfalse hb] at he
      exact absurd he (herr s hb)
  · intro hsub s hs id hid
    cases hb : m.answer s with
    | true =>
      rw [hafter hb]
      exact h.frame hsub s hs id hid
    | false =>
      rw [hfalse hb]
      exact hm.frame (List.nil_subset _) s hs id (by simp)
  · intro hsub hI hpre s hs hi hfresh he hwithin
    cases hb : m.answer s with
    | true =>
      rw [hafter hb] at he hwithin ⊢
      rw [hanswer hb]
      exact h.run hsub hI hpre s hs hi hfresh he hwithin
    | false =>
      rw [hfalse hb] at he
      exact absurd he (herr s hb)

/-! ## Scopes of their own -/

/-- A block, or some other scope that no function begins with. -/
theorem inScope {kind : ScopeKind} (hkind : kind.isFunction = false) {stmts : List Stmt}
    (hd : xs ⊆ I.env.member.sites → ∀ d ∈ directFunctions stmts, d ∈ I.env.member.localFunctions)
    {body : Walk Unit} (hb : Covers I (a.block stmts) pre xs (fun _ => True) body) :
    Covers I a pre xs (fun _ => True)
      (Walk.inScope kind (Walk.declareFunctions stmts >>= fun _ => body)) := by
  have henter (hsub : xs ⊆ I.env.member.sites) {s : WalkState} (hs : s.Placed I.env) :
      (s.inBlock kind stmts).Placed I.env :=
    (hs.pushScope kind s.ctx.frames).declareFunctions (hd hsub)
  refine ⟨fun hsub => .inScope hkind (hd hsub) (hb.proper hsub), ?_, ?_, ?_⟩
  · intro hsub hreg s hs he x hx
    rw [Walk.after_inScope] at he ⊢
    have hr := hb.reaches hsub hreg _ (henter hsub hs) he x hx
    exact ⟨hr.recorded, hr.placed⟩
  · intro hsub s hs id hid
    rw [Walk.after_inScope]
    exact hb.frame hsub _ (henter hsub hs) id hid
  · intro hsub hI hpre s hs hi hfresh he hw
    rw [Walk.after_inScope] at he hw ⊢
    have hs' : I.Matches (a.block stmts) (s.inBlock kind stmts) :=
      (hs.pushScope).withFunctions (hd hsub)
    have hi' : (s.inBlock kind stmts).Intact := (hi.pushScope kind s.ctx.frames).withFunctions stmts
    obtain ⟨_, hi'', hr⟩ :=
      hb.run hsub hI hpre _ hs' hi' ⟨hfresh.nodup, hfresh.unrecorded⟩ he hw
    exact ⟨trivial, hi''.leave, hr⟩

/-- A scope without local functions. -/
theorem scope {kind : ScopeKind} (hkind : kind.isFunction = false) {body : Walk Unit}
    (hb : Covers I a pre xs (fun _ => True) body) :
    Covers I a pre xs (fun _ => True) (Walk.inScope kind body) := by
  have h : Covers I a pre xs (fun _ => True)
      (Walk.inScope kind (Walk.declareFunctions [] >>= fun _ => body)) :=
    inScope hkind (fun _ _ hd => by simp [directFunctions] at hd) hb.atBlock
  exact h

/-- A nested function, given the walk over its parameters and the one over its body. -/
theorem inFunction {kind : ScopeKind} (hkind : kind.isFunction = true) {frame : FunctionFrame}
    (byRef : Bool) (ty : TypeRef)
    (hframe : pre → frame.returnsByRef = byRef ∧
      (I.strict → frame.returnsStackOnly = I.types.stackOnly ty) ∧
      ∀ pair, frame.thisPair = some pair → pair.isInvalid = false)
    {stmts : List Stmt}
    (hd : xs ⊆ I.env.member.sites → ∀ d ∈ directFunctions stmts, d ∈ I.env.member.localFunctions)
    {params body : Walk Unit}
    (hp : Covers I ⟨a.functions, byRef, ty⟩ pre [] (fun _ => True) params)
    (hb : Covers I ((⟨a.functions, byRef, ty⟩ : Point).block stmts) pre xs (fun _ => True) body) :
    Covers I a pre xs (fun _ => True) (Walk.inFunction kind frame
      (params >>= fun _ => Walk.declareFunctions stmts >>= fun _ => body)) := by
  have hproper := hp.proper (List.nil_subset _)
  have henter {s : WalkState} (hs : s.Placed I.env) : (s.inFunction kind frame).Placed I.env :=
    hs.pushScope kind (frame :: s.ctx.frames)
  have hbound {s : WalkState} (hs : s.Placed I.env) := hproper.progress _ (henter hs)
  have hinside (hsub : xs ⊆ I.env.member.sites) {s : WalkState} (hs : s.Placed I.env) :
      ((params.after (s.inFunction kind frame)).withFunctions stmts).Placed I.env :=
    ((hbound hs).placed (henter hs)).declareFunctions (hd hsub)
  have hkeeps {s : WalkState} (hs : s.Placed I.env) (id : NodeId) :
      (params.after (s.inFunction kind frame)).facts.pair? id = s.facts.pair? id :=
    hp.frame (List.nil_subset _) _ (henter hs) id (by simp)
  refine ⟨fun hsub => .inFunction hkind frame (hd hsub) hproper (hb.proper hsub), ?_, ?_, ?_⟩
  · intro hsub hreg s hs he x hx
    rw [Walk.after_inFunction] at he ⊢
    have hr := hb.reaches hsub hreg _ (hinside hsub hs) he x hx
    exact ⟨hr.recorded, hr.placed⟩
  · intro hsub s hs id hid
    rw [Walk.after_inFunction]
    have hb' := hb.frame hsub _ (hinside hsub hs) id hid
    exact hb'.trans (hkeeps hs id)
  · intro hsub hI hpre s hs hi hfresh he hw
    rw [Walk.after_inFunction] at he hw ⊢
    obtain ⟨href, hstack, hthis⟩ := hframe hpre
    have hs₁ := hs.inFunction kind href hstack hthis
    have hi₁ : (s.inFunction kind frame).Intact := hi.pushScope kind (frame :: s.ctx.frames)
    have hp' := (hb.proper hsub).progress _ (hinside hsub hs.placed)
    have hfresh' : ((params.after (s.inFunction kind frame)).withFunctions stmts).Fresh
        (Site.visitedIds xs) :=
      ⟨hfresh.nodup, fun id hid => (hkeeps hs.placed id).trans (hfresh.unrecorded id hid)⟩
    have hwithin : (params.after (s.inFunction kind frame)).facts.Within I.facts := by
      intro id pair hid
      refine hw id pair ?_
      change (body.after _).facts.pair? id = some pair
      rw [hb.frame hsub _ (hinside hsub hs.placed) id]
      · exact hid
      · intro hmem
        have hnone := hfresh'.unrecorded id hmem
        change (params.after (s.inFunction kind frame)).facts.pair? id = none at hnone
        rw [hnone] at hid
        exact absurd hid (by simp)
    obtain ⟨_, hi₂, _⟩ := hp.run (List.nil_subset _) hI hpre _ hs₁ hi₁ ⟨List.nodup_nil, by simp⟩
      (hp'.errors_eq_nil he) hwithin
    have hs₂ := (hs₁.later hI (hbound hs.placed)).withFunctions (hd hsub)
    obtain ⟨_, hi₃, hr⟩ := hb.run hsub hI hpre _ hs₂ (hi₂.withFunctions stmts) hfresh' he hw
    exact ⟨trivial, hi₃.leave, hr⟩

/-- The inside of a local function, with its type parameters in scope. -/
theorem inLocalScope {d : FnDecl} (hd : xs ⊆ I.env.member.sites → d ∈ I.env.member.localFunctions)
    {body : WalkState → Walk Unit}
    (same : I.env.Apart → ∀ s t : WalkState, s.Alike I.env t → body s = body t)
    (hb : ∀ s : WalkState, s.Placed I.env →
      Covers I a (pre ∧ I.Sound ∧ I.Matches a s) xs (fun _ => True) (body s)) :
    Covers I a pre xs (fun _ => True)
      (get >>= fun s => Walk.withGenerics (s.localScope I.env d) (body s)) := by
  have hafter (s : WalkState) :
      (get >>= fun s => Walk.withGenerics (s.localScope I.env d) (body s)).after s =
        { (body s).after { s with generics := s.localScope I.env d } with
          generics := s.generics } := rfl
  refine ⟨fun hsub => .inLocalScope (hd hsub) same fun s hs => (hb s hs).proper hsub, ?_, ?_, ?_⟩
  · intro hsub hreg s hs he x hx
    rw [hafter] at he ⊢
    have hr := (hb s hs).reaches hsub hreg _ (hs.localScope (hd hsub)) he x hx
    exact ⟨hr.recorded, hr.placed⟩
  · intro hsub s hs id hid
    rw [hafter]
    exact (hb s hs).frame hsub _ (hs.localScope (hd hsub)) id hid
  · intro hsub hI hpre s hs hi hfresh he hw
    rw [hafter] at he hw ⊢
    have hs' : I.Matches a { s with generics := s.localScope I.env d } :=
      ⟨hs.placed.localScope (hd hsub), hs.enclosed, hs.functions, hs.function, hs.receivers,
        hs.valid, hs.tables⟩
    obtain ⟨_, hi', hr⟩ := (hb s hs.placed).run hsub hI ⟨hpre, hI, hs⟩ _ hs' ⟨hi.locals, hi.facts⟩
      ⟨hfresh.nodup, hfresh.unrecorded⟩ he hw
    exact ⟨trivial, ⟨hi'.locals, hi'.facts⟩, hr⟩

end Covers

end StackEscape
