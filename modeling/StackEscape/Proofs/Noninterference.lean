import StackEscape.Proofs.BodyFollowing
import StackEscape.Proofs.MemberWalk

/-!
# What `scoped` modifiers have influence on

Two runs over whole programs that differ in `scoped` modifiers only. If only local variables became
`scoped`, every level becomes narrower or stays, and nothing else changes. Whatever changed, what is
no matter of levels stays the same.

## Main definitions

* `StackEscape.Member.Rescoped` — a member with other modifiers.
* `StackEscape.BodyResult.Follows` — what the second run yields for some bodies.

## Main results

* `StackEscape.Program.members_rescoped` — the members of a program with other modifiers.
* `StackEscape.Program.checkMember_follows`, `checkMembers_follows` — the walks over bodies.
* `StackEscape.Program.facts_marking` — more local variables are `scoped`: narrower levels.
* `StackEscape.Program.analyze_of_unscoped_eq` — other modifiers: the same errors, up to violations.
-/

set_option autoImplicit false

namespace StackEscape

/-- The second member is the first one with other modifiers in it and around it. -/
structure Member.Rescoped (tight : Bool) (m m' : Member) : Prop where
  /-- The parts of their types have the same outline. -/
  owner : m'.owner.outline tight = m.owner.outline tight
  /-- The declaration has other modifiers. -/
  decl : ∃ σ : Rescoping, σ.Fits tight ∧ m'.decl = σ.fn m.decl

/-- What the second run yields for some bodies follows what the first one yields. -/
structure BodyResult.Follows (tight : Bool) (a b : BodyResult) : Prop where
  /-- The same errors were found that are no matter of levels. -/
  errors : withoutViolations b.errors = withoutViolations a.errors
  /-- The facts follow. -/
  facts : a.facts.Follows tight b.facts

namespace BodyResult.Follows

variable {tight : Bool} {a a' b b' : BodyResult}

theorem refl (tight : Bool) (a : BodyResult) : Follows tight a a := ⟨rfl, .refl tight _⟩

theorem merge (ha : Follows tight a a') (hb : Follows tight b b') :
    Follows tight (a.merge b) (a'.merge b') := by
  refine ⟨?_, ha.facts.extend hb.facts⟩
  simp only [BodyResult.merge, withoutViolations_append, ha.errors, hb.errors]

end BodyResult.Follows

/-! ## Members -/

section Members

variable {tight : Bool} {σ : Rescoping}

namespace Member.Rescoped

variable {m m' : Member}

theorem outline (h : m.Rescoped tight m') : m'.outline tight = m.outline tight := by
  obtain ⟨ho, τ, hτ, hd⟩ := h
  simp only [Member.outline, ho, hd, Rescoping.outline_fn hτ]

theorem key (h : m.Rescoped tight m') : m'.key = m.key := (congrArg Member.key h.outline :)

theorem innerScope (h : m.Rescoped tight m') : m'.innerScope = m.innerScope :=
  (congrArg Member.innerScope h.outline :)

theorem span (h : m.Rescoped tight m') : m'.decl.span = m.decl.span :=
  (congrArg (fun x : Member => x.decl.span) h.outline :)

/-- The same members have bodies, and the bodies differ in modifiers. -/
theorem body (h : m.Rescoped tight m') :
    ∃ τ : Rescoping, τ.Fits tight ∧ m'.decl.body = τ.branch m.decl.body := by
  obtain ⟨_, τ, hτ, hd⟩ := h
  refine ⟨τ.part 1, hτ.part 1, ?_⟩
  rw [hd]
  rcases m.decl with ⟨id, name, kind, modifiers, typeParams, params, ret, attrs, explicitImpl,
    overrides, body, span⟩
  rw [Rescoping.fn]

theorem hasBody (h : m.Rescoped tight m') : m'.decl.body.isSome = m.decl.body.isSome := by
  obtain ⟨τ, _, hbody⟩ := h.body
  rw [hbody]
  cases m.decl.body <;> rfl

theorem params (h : m.Rescoped tight m') :
    m'.decl.params.map (Param.outline tight) = m.decl.params.map (Param.outline tight) :=
  (congrArg (fun x : Member => x.decl.params) h.outline :)

end Member.Rescoped

/-- A test that modifiers have no influence on selects the same members. -/
theorem Member.filter_rescoped {ms ms' : List Member}
    (h : List.Forall₂ (Member.Rescoped tight) ms ms') (test : Member → Bool)
    (htest : ∀ m m', Member.Rescoped tight m m' → test m' = test m) :
    List.Forall₂ (Member.Rescoped tight) (ms.filter test) (ms'.filter test) := by
  induction h with
  | nil => exact .nil
  | @cons m m' _ _ hm _ ih =>
    rw [List.filter_cons, List.filter_cons, htest m m' hm]
    split
    · exact .cons hm ih
    · exact ih

/-- The members of a type part with other modifiers. -/
theorem Rescoping.fns_rescoped (h : σ.Fits tight) {t t' : TypeDecl}
    (ht : t'.outline tight = t.outline tight) (fs : List FnDecl) :
    List.Forall₂ (Member.Rescoped tight) (fs.map fun f => ⟨t, f⟩)
      ((σ.fns fs).map fun f => ⟨t', f⟩) := by
  induction fs generalizing σ with
  | nil => exact .nil
  | cons f rest ih => exact .cons ⟨ht, _, h.part 0, rfl⟩ (ih (h.part 1))

/-- The members of a program with other modifiers are its members with other modifiers. -/
theorem Program.members_rescoped (h : σ.Fits tight) (p : Program) :
    List.Forall₂ (Member.Rescoped tight) p.members (σ.program p).members := by
  suffices hin : ∀ ts : List TypeDecl, List.Forall₂ (Member.Rescoped tight)
      (ts.flatMap fun t => t.members.map fun m => ⟨t, m⟩)
      ((σ.typeDecls ts).flatMap fun t => t.members.map fun m => ⟨t, m⟩) from hin p.types
  intro ts
  induction ts generalizing σ with
  | nil => exact .nil
  | cons t rest ih =>
    exact List.rel_append
      (Rescoping.fns_rescoped ((h.part 0).part 1) (Rescoping.outline_typeDecl (h.part 0) t) _)
      (ih (h.part 1))

end Members

/-! ## Bodies -/

namespace Program

section Walks

variable {tight : Bool} {p p' : Program} {m m' : Member} {T U : Tables}

/-- The contract that a body is walked with is the same, up to modifiers. -/
theorem entryContract_outline (hp : p'.outline tight = p.outline tight)
    (hm : m.Rescoped tight m') (hT : T.Follows tight U) :
    (p'.entryContract U m').outline tight = (p.entryContract T m).outline tight ∧
      Tables.Follows tight { T with contracts := (T.contracts.ofMember T.caps p m).2 }
        { U with contracts := (U.contracts.ofMember U.caps p' m').2 } := by
  have hdecl : m'.decl.outline tight = m.decl.outline tight := congrArg Member.decl hm.outline
  have hbuild : (Contract.ofMember U.caps p' m').outline tight =
      (Contract.ofMember T.caps p m).outline tight := by
    rw [hT.caps, Contract.ofMember, Contract.ofMember, hm.key, hm.innerScope]
    exact Contract.build_outline_congr _ hp hm.owner hdecl _ _ _
  simp only [entryContract, Contracts.ofMember, hm.key]
  exact hT.obtain m.key hbuild

/-- The walks over a member start alike. -/
theorem entry_follows (hp : p'.outline tight = p.outline tight) (hm : m.Rescoped tight m')
    (hT : T.Follows tight U) : (p.entry T m).Follows tight (p'.entry U m') := by
  obtain ⟨hcontract, htables⟩ := entryContract_outline hp hm hT
  have hframe : m'.frame (p'.entryContract U m') = m.frame (p.entryContract T m) := by
    have hret : m'.decl.ret = m.decl.ret := (congrArg (fun x : Member => x.decl.ret) hm.outline :)
    have hmodifiers : m'.decl.modifiers = m.decl.modifiers :=
      (congrArg (fun x : Member => x.decl.modifiers) hm.outline :)
    simp only [Member.frame, hret, hmodifiers, Contract.returnsStackOnly_eq hcontract,
      Contract.receiver_eq hcontract]
  refine ⟨⟨.cons ⟨rfl, .nil, fun _ => rfl⟩ .nil, ?_⟩, hm.innerScope, .refl tight _, rfl, htables⟩
  exact congrArg (fun frame => [frame]) hframe

/-- The walks over the body of a member end alike. -/
theorem walkMember_follows (hp : p'.outline tight = p.outline tight) (hm : m.Rescoped tight m')
    (runtime : Bool) (hT : T.Follows tight U) {τ : Rescoping} (hτ : τ.Fits tight)
    (body : List Stmt) :
    (p.walkMember runtime T m body).Follows tight
      (p'.walkMember runtime U m' (τ.stmts body)) := by
  have he : Surroundings.Follows tight ⟨p, m, runtime⟩ ⟨p', m', runtime⟩ := ⟨hp, hm.outline, rfl⟩
  obtain ⟨hcontract, _⟩ := entryContract_outline hp hm hT
  have hbind : Walk.Follows tight Eq (p.bindMember runtime T m) (p'.bindMember runtime U m') :=
    Walk.Follows.bindParams he false hm.params (Contract.params_outline hcontract)
  have hbound := (hbind _ _ (entry_follows hp hm hT)).2
  rw [walkMember_eq, walkMember_eq]
  refine (Walk.Follows.checkStmts he hτ body _ _ ?_).2
  exact ⟨hbound.ctx.declareFunctions (Rescoping.outline_directFunctions hτ body), hbound.generics,
    hbound.facts, hbound.errors, hbound.tables⟩

/-- What the walk over a member yields. -/
theorem checkMember_follows (hp : p'.outline tight = p.outline tight)
    (hm : m.Rescoped tight m') (runtime : Bool) (hT : T.Follows tight U) :
    (p.checkMember runtime T m).1.Follows tight (p'.checkMember runtime U m').1 ∧
      (p.checkMember runtime T m).2.Follows tight (p'.checkMember runtime U m').2 := by
  obtain ⟨τ, hτ, hbody⟩ := hm.body
  rw [checkMember, checkMember, hbody]
  cases m.decl.body with
  | none => exact ⟨.refl tight _, hT⟩
  | some body =>
    have h := walkMember_follows hp hm runtime hT hτ body
    exact ⟨⟨h.errors, h.facts⟩, h.tables⟩

/-- What the walks over some members yield, one after the other. -/
theorem checkMembers_follows (hp : p'.outline tight = p.outline tight) (runtime : Bool)
    (hT : T.Follows tight U) {ms ms' : List Member}
    (hms : List.Forall₂ (Member.Rescoped tight) ms ms') :
    (p.checkMembers runtime T ms).1.Follows tight (p'.checkMembers runtime U ms').1 ∧
      (p.checkMembers runtime T ms).2.Follows tight (p'.checkMembers runtime U ms').2 := by
  let P (r r' : BodyResult × Tables) : Prop := r.1.Follows tight r'.1 ∧ r.2.Follows tight r'.2
  have hstart : P ({}, T) ({}, U) := ⟨.refl tight _, hT⟩
  refine List.rel_foldl (P := P) (fun r r' hr m m' hm => ?_) hstart hms
  have h := checkMember_follows hp hm runtime hr.2
  exact ⟨hr.1.merge h.1, h.2⟩

end Walks

/-! ## Whole runs -/

section Runs

variable {tight : Bool} {σ : Rescoping}

/-- The members with bodies are the same, up to modifiers. -/
theorem bodies_rescoped (h : σ.Fits tight) (p : Program) :
    List.Forall₂ (Member.Rescoped tight) p.bodies (σ.program p).bodies :=
  Member.filter_rescoped (members_rescoped h p) _ fun _ _ hm => hm.hasBody

/-- Declarations and contracts are judged alike, and the walks over the bodies follow. -/
theorem analyze_follows (h : σ.Fits tight) (p : Program) (options : Options) :
    ((σ.program p).analyze options).declarationErrors = (p.analyze options).declarationErrors ∧
      withoutViolations ((σ.program p).analyze options).escapeErrors =
        withoutViolations (p.analyze options).escapeErrors ∧
      (p.analyze options).facts.Follows tight ((σ.program p).analyze options).facts := by
  have hp := Rescoping.outline_program h p
  have hdecls : (σ.program p).checkDeclarations options.runtimeSupport .empty =
      p.checkDeclarations options.runtimeSupport .empty := by
    rw [← checkDeclarations_outline tight, hp, checkDeclarations_outline]
  have hcontracts : (σ.program p).contractErrors = p.contractErrors := by
    rw [← contractErrors_outline tight, hp, contractErrors_outline]
  -- The same bodies are skipped.
  have hskips (m m' : Member) (hm : m.Rescoped tight m') :
      isMalformed (p.checkDeclarations options.runtimeSupport .empty).2 p.contractErrors m' =
        isMalformed (p.checkDeclarations options.runtimeSupport .empty).2 p.contractErrors m := by
    simp only [isMalformed, hm.span]
  have hwalked := Member.filter_rescoped (bodies_rescoped h p)
    (fun m => !(options.stopOnDeclarationErrors &&
      isMalformed (p.checkDeclarations options.runtimeSupport .empty).2 p.contractErrors m))
    fun m m' hm => by rw [hskips m m' hm]
  have hwalks := (checkMembers_follows hp options.runtimeSupport
    (.refl tight ⟨(p.checkDeclarations options.runtimeSupport .empty).1, .empty⟩) hwalked).1
  unfold analyze
  rw [hdecls, hcontracts]
  exact ⟨rfl, by simp only [withoutViolations_append, hwalks.errors], hwalks.facts⟩

/-- If more local variables are `scoped`, the same expressions are recorded and given up, with levels
that are no wider, and null tests and copies are the same: in every body, from whatever tables the
walk over it starts, and in a whole run. -/
theorem facts_marking (p : Program) (positions : List Nat → Bool) :
    (∀ runtime T, List.Forall₂ (fun m m' => (p.checkMember runtime T m).1.facts.Follows true
        (((Rescoping.marking positions).program p).checkMember runtime T m').1.facts)
      p.members ((Rescoping.marking positions).program p).members) ∧
    ∀ options, (p.analyze options).facts.Follows true
      (((Rescoping.marking positions).program p).analyze options).facts := by
  have hσ : (Rescoping.marking positions).Fits true := fun _ =>
    Rescoping.confining_marking positions
  refine ⟨fun runtime T => ?_, fun options => (analyze_follows hσ p options).2.2⟩
  exact (members_rescoped hσ p).imp fun m m' hm =>
    (checkMember_follows (Rescoping.outline_program hσ p) hm runtime (.refl true T)).1.facts

/-- A copy of a slot that becomes `scoped` is confined, and its record gets narrower. -/
example :
    let copy : FnDecl := Slots.fn 1 "Copy" [Slots.slotParam "slot" .none false] (.byValue .void)
      [⟨2, .declare ⟨"copy", Slots.slotTy, .none, false, some (Slots.slotVar 3 "slot"), .zero⟩, .zero⟩,
        ⟨4, .expr (Slots.slotVar 5 "copy"), .zero⟩]
    let copies : TypeDecl := { Slots.decl with name := "Copies", members := [copy] }
    let p : Program := ⟨Slots.program.types ++ [copies]⟩
    let marked := (Rescoping.marking fun _ => true).program p
    (p.analyze {}).facts.pair? 5 = some ⟨.callingMethod, .currentMethod, false⟩ ∧
      (marked.analyze {}).facts.pair? 5 = some ⟨.currentMethod, .currentMethod, false⟩ := by
  decide +kernel

/-- Whatever `scoped` modifiers are changed, a run finds the same errors in declarations, the same
errors in contracts and bodies that are no matter of levels, and the same null tests. -/
theorem analyze_rescoping (p : Program) (σ : Rescoping) (options : Options) :
    ((σ.program p).analyze options).declarationErrors = (p.analyze options).declarationErrors ∧
      withoutViolations ((σ.program p).analyze options).escapeErrors =
        withoutViolations (p.analyze options).escapeErrors ∧
      ((σ.program p).analyze options).facts.nullTests = (p.analyze options).facts.nullTests := by
  have hσ : σ.Fits false := by simp [Rescoping.Fits]
  obtain ⟨hdecls, herrors, hfacts⟩ := analyze_follows hσ p options
  exact ⟨hdecls, herrors, hfacts.nullTests⟩

/-- Between two programs that are the same up to `scoped` modifiers there is no difference in what a
run finds wrong with declarations, in the errors of contracts and bodies that are no matter of levels,
and in null tests. -/
theorem analyze_of_unscoped_eq {p q : Program} (h : q.unscoped = p.unscoped) (options : Options) :
    (q.analyze options).declarationErrors = (p.analyze options).declarationErrors ∧
      withoutViolations (q.analyze options).escapeErrors =
        withoutViolations (p.analyze options).escapeErrors ∧
      (q.analyze options).facts.nullTests = (p.analyze options).facts.nullTests := by
  obtain ⟨hdecls, herrors, htests⟩ := analyze_rescoping p .erasing options
  obtain ⟨hdecls', herrors', htests'⟩ := analyze_rescoping q .erasing options
  change Rescoping.erasing.program q = Rescoping.erasing.program p at h
  rw [h] at hdecls' herrors' htests'
  exact ⟨hdecls'.symm.trans hdecls, herrors'.symm.trans herrors, htests'.symm.trans htests⟩

/-- The slots, and the same program with all its parameters `scoped`. A slot that is `scoped` is not
returned, but this is a matter of levels. -/
theorem analyze_of_unscoped_eq_slots :
    let q : Program := Rescoping.program ⟨fun _ isScoped => isScoped, fun _ _ => true⟩ Slots.program
    q.unscoped = Slots.program.unscoped ∧ (q.analyze {}).isOk = false ∧
      (q.analyze {}).declarationErrors = (Slots.program.analyze {}).declarationErrors ∧
      withoutViolations (q.analyze {}).escapeErrors =
        withoutViolations (Slots.program.analyze {}).escapeErrors := by
  intro q
  have hsame : q.unscoped = Slots.program.unscoped := rfl
  obtain ⟨hdecls, herrors, _⟩ := analyze_of_unscoped_eq hsame {}
  exact ⟨hsame, by decide +kernel, hdecls, herrors⟩

end Runs

end Program

end StackEscape
