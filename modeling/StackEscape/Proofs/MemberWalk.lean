import StackEscape.Proofs.BodyCoverage

/-!
# The walk over a member

What is known of the walk over the body of one member, from whatever tables it starts.

## Main definitions

* `StackEscape.Program.entry`, `bodyEntry` — the states in which the walks over a member and over
  its statements start.

## Main results

* `StackEscape.Program.walkMember_tables` — what the walk files.
* `StackEscape.Program.walkMember_frame`, `walkMember_reaches` — what the walk records.
* `StackEscape.Program.walkMember_run` — what is known if there is no error at the end.
-/

set_option autoImplicit false

namespace StackEscape

namespace Program

variable {p : Program} {runtime : Bool} {T : Tables} {m : Member} {body : List Stmt}

/-- The contract with which a member's body is walked. -/
def entryContract (p : Program) (T : Tables) (m : Member) : Contract :=
  (T.contracts.ofMember T.caps p m).1

/-- The state in which the walk over a member starts. -/
def entry (p : Program) (T : Tables) (m : Member) : WalkState where
  ctx := .ofFrame (m.frame (p.entryContract T m))
  generics := m.innerScope
  tables := { T with contracts := (T.contracts.ofMember T.caps p m).2 }

/-- The walk that binds the parameters of a member. -/
def bindMember (p : Program) (runtime : Bool) (T : Tables) (m : Member) : Walk Unit :=
  Walk.bindParams ⟨p, m, runtime⟩ false m.decl.params (p.entryContract T m).params

/-- The state in which the walk over the statements of a member starts. -/
def bodyEntry (p : Program) (runtime : Bool) (T : Tables) (m : Member) (body : List Stmt) :
    WalkState :=
  ((p.bindMember runtime T m).after (p.entry T m)).withFunctions body

/-- The walk over a member ends where the walk over its statements ends. -/
theorem walkMember_eq (p : Program) (runtime : Bool) (T : Tables) (m : Member)
    (body : List Stmt) : p.walkMember runtime T m body =
      (Walk.checkStmts ⟨p, m, runtime⟩ body).after (p.bodyEntry runtime T m body) := by
  change (Walk.checkStmts ⟨p, m, runtime⟩ body).after ((Walk.declareFunctions body).after _) = _
  rw [Walk.after_declareFunctions]
  rfl

/-- The sites of a member with a body. -/
theorem sites_eq_of_body (h : m.decl.body = some body) :
    m.sites = Site.ofStmts (.ofMember m body) body := by
  rw [Member.sites, h]

/-- Local functions of a member's statements are those of the member. -/
theorem direct_of_body (h : m.decl.body = some body) :
    ∀ d ∈ directFunctions body, d ∈ m.localFunctions := by
  refine Covers.mem_localFunctions_of_direct (b := .ofMember m body) fun x hx => ?_
  rw [sites_eq_of_body h]
  exact hx

/-! ## What holds of every walk -/

/-- The walk starts within the body. -/
theorem placed_entry (p : Program) (runtime : Bool) (T : Tables) (m : Member) :
    (p.entry T m).Placed ⟨p, m, runtime⟩ := by
  refine ⟨.member, fun scope hmem name d hd => ?_⟩
  obtain rfl := List.mem_singleton.1 hmem
  simp at hd

/-- Binding the parameters covers no sites. -/
theorem covers_bindMember (p : Program) (runtime : Bool) (T : Tables) (m : Member) (a : Point)
    (caps : Capabilities) (facts : Facts) (strict : Prop) :
    Covers ⟨⟨p, m, runtime⟩, caps, facts, strict⟩ a True [] (fun _ => True)
      (p.bindMember runtime T m) := Covers.bindParams false _ _

/-- Binding the parameters is a proper walk. -/
theorem proper_bindMember (p : Program) (runtime : Bool) (T : Tables) (m : Member) :
    (p.bindMember runtime T m).Proper ⟨p, m, runtime⟩ :=
  (covers_bindMember p runtime T m ⟨[], false, .void⟩ .empty .empty False).proper
    (List.nil_subset _)

/-- The walk over the statements covers the sites of the member. -/
theorem covers_body (runtime : Bool) (h : m.decl.body = some body) (caps : Capabilities)
    (facts : Facts) (strict : Prop) :
    Covers ⟨⟨p, m, runtime⟩, caps, facts, strict⟩ (.ofMember m body) True m.sites (fun _ => True)
      (Walk.checkStmts ⟨p, m, runtime⟩ body) := by
  rw [sites_eq_of_body h]
  exact Covers.checkStmts body

/-- The walk over the statements is proper. -/
theorem proper_body (p : Program) (runtime : Bool) (h : m.decl.body = some body) :
    (Walk.checkStmts ⟨p, m, runtime⟩ body).Proper ⟨p, m, runtime⟩ :=
  (covers_body runtime h .empty .empty False).proper (List.Subset.refl _)

/-- Binding the parameters is progress. -/
theorem progress_bindMember (p : Program) (runtime : Bool) (T : Tables) (m : Member) :
    (p.entry T m).Progress ⟨p, m, runtime⟩ ((p.bindMember runtime T m).after (p.entry T m)) :=
  (proper_bindMember p runtime T m).progress _ (placed_entry p runtime T m)

/-- The walk over the statements starts within the body. -/
theorem placed_bodyEntry (p : Program) (runtime : Bool) (T : Tables)
    (h : m.decl.body = some body) :
    (p.bodyEntry runtime T m body).Placed ⟨p, m, runtime⟩ :=
  ((progress_bindMember p runtime T m).placed (placed_entry p runtime T m)).declareFunctions
    (direct_of_body h)

/-- The walk over the statements is progress. -/
theorem progress_body (p : Program) (runtime : Bool) (T : Tables) (h : m.decl.body = some body) :
    (p.bodyEntry runtime T m body).Progress ⟨p, m, runtime⟩ (p.walkMember runtime T m body) := by
  rw [walkMember_eq]
  exact (proper_body p runtime h).progress _ (placed_bodyEntry p runtime T h)

/-- The walk files contracts and capabilities, one at a time. -/
theorem walkMember_tables (hm : m ∈ p.members) (h : m.decl.body = some body) :
    Relation.ReflTransGen (Surroundings.TableStep ⟨p, m, runtime⟩) T
      (p.walkMember runtime T m body).tables :=
  (Relation.ReflTransGen.single (.member hm T)).trans
    ((progress_bindMember p runtime T m).tables.trans (progress_body p runtime T h).tables)

/-- Binding the parameters records nothing. -/
theorem bodyEntry_unrecorded (p : Program) (runtime : Bool) (T : Tables) (m : Member)
    (body : List Stmt) (id : NodeId) :
    (p.bodyEntry runtime T m body).facts.pair? id = none :=
  (covers_bindMember p runtime T m ⟨[], false, .void⟩ .empty .empty False).frame
    (List.nil_subset _) _ (placed_entry p runtime T m) id (by simp)

/-- Only expressions of the body are recorded. -/
theorem walkMember_frame (h : m.decl.body = some body) {id : NodeId}
    (hid : id ∉ Site.visitedIds m.sites) :
    (p.walkMember runtime T m body).facts.pair? id = none := by
  rw [walkMember_eq, (covers_body runtime h .empty .empty False).frame (List.Subset.refl _) _
    (placed_bodyEntry p runtime T h) id hid]
  exact bodyEntry_unrecorded p runtime T m body id

/-- If there is no error at the end, all sites were reached. -/
theorem walkMember_reaches (h : m.decl.body = some body) (hreg : ∀ x ∈ m.sites, x.IsRegular)
    (he : (p.walkMember runtime T m body).errors = []) :
    ∀ x ∈ m.sites, x.Reached ⟨p, m, runtime⟩ (p.walkMember runtime T m body) := by
  rw [walkMember_eq] at he ⊢
  exact (covers_body runtime h .empty .empty False).reaches (List.Subset.refl _) hreg _
    (placed_bodyEntry p runtime T h) he

/-! ## What holds of a walk without errors -/

/-- The walk starts at the outermost point of the body. -/
theorem matches_entry {I : Inspection} (hI : I.Sound)
    (hv : T.Valid) (he : I.strict → T.Exact I.env.program I.caps) :
    I.Matches ⟨[], I.env.member.decl.ret.isByRef, I.env.member.decl.ret.ty⟩
      (I.env.program.entry T I.env.member) := by
  have hcontract (hst : I.strict) : I.env.program.entryContract T I.env.member =
      Contract.ofMember I.caps I.env.program I.env.member :=
    ((he hst).obtainMember (hI.keys hst) hI.mem).1
  refine ⟨placed_entry I.env.program I.env.runtime T I.env.member, List.cons_ne_nil _ _,
    fun _ => rfl, ⟨_, rfl, rfl, fun hst => ?_⟩, fun f hf pair hp => ?_, ?_, fun hst => ?_⟩
  · change (I.env.program.entryContract T I.env.member).returnsStackOnly = _
    rw [hcontract hst]
    rfl
  · obtain rfl := List.mem_singleton.1 hf
    obtain ⟨c, _, rfl⟩ := Option.map_eq_some_iff.1 hp
    rfl
  · exact (hv.obtain _ (Contract.valid_build (hI.placed.members _ hI.mem))).2
  · exact ((he hst).obtainMember (hI.keys hst) hI.mem).2

/-- If there is no error at the end, nothing was given up, and nothing flows out that does not live
long enough. -/
theorem walkMember_run {I : Inspection} (hI : I.Sound) (h : I.env.member.decl.body = some body)
    (hv : T.Valid) (he : I.strict → T.Exact I.env.program I.caps)
    (hids : (Site.visitedIds I.env.member.sites).Nodup)
    (herr : (I.env.program.walkMember I.env.runtime T I.env.member body).errors = [])
    (hw : (I.env.program.walkMember I.env.runtime T I.env.member body).facts.Within I.facts) :
    (∀ id pair, (I.env.program.walkMember I.env.runtime T I.env.member body).facts.pair? id =
        some pair → pair.isInvalid = false) ∧
      (I.strict → ∀ x ∈ I.env.member.sites, x.Respects I.env I.caps I.facts) := by
  have hbind := progress_bindMember I.env.program I.env.runtime T I.env.member
  have hbody := progress_body I.env.program I.env.runtime T h
  have hunrecorded := bodyEntry_unrecorded I.env.program I.env.runtime T I.env.member body
  have hentry := matches_entry hI hv he
  have hintact : (I.env.program.entry T I.env.member).Intact := by
    refine ⟨fun scope hmem info hinfo => ?_, fun id pair hid => ?_⟩
    · obtain rfl := List.mem_singleton.1 hmem
      simp at hinfo
    · simp [entry, Facts.pair?, Facts.empty] at hid
  -- The parameters are bound without errors, since there are none at the end.
  obtain ⟨_, hintact', _⟩ := (covers_bindMember I.env.program I.env.runtime T I.env.member
    ⟨[], I.env.member.decl.ret.isByRef, I.env.member.decl.ret.ty⟩ I.caps I.facts I.strict).run
      (List.nil_subset _) hI trivial _ hentry hintact ⟨List.nodup_nil, by simp⟩
      (hbody.errors_eq_nil herr) fun id pair hid => by
        have hnone := hunrecorded id
        change ((I.env.program.bindMember _ T _).after _).facts.pair? id = none at hnone
        rw [hnone] at hid
        exact absurd hid (by simp)
  rw [walkMember_eq] at herr hw ⊢
  obtain ⟨_, hfinal, hrespects⟩ := (covers_body I.env.runtime h I.caps I.facts I.strict).run
    (List.Subset.refl _) hI trivial _ ((hentry.later hI hbind).withFunctions (direct_of_body h))
    (hintact'.withFunctions body) ⟨hids, fun id _ => hunrecorded id⟩ herr hw
  exact ⟨hfinal.facts, hrespects⟩

end Program

end StackEscape
