import Mathlib.Data.List.Flatten
import Mathlib.Data.List.Induction
import StackEscape.Proofs.MemberWalk

/-!
# Accepted programs

What is known of a program in which a run finds no error.

## Main definitions

* `StackEscape.Program.WellFormed` — what is asked of a program.
* `StackEscape.Program.Accepts` — what is known after the walks over some members without errors.

## Main results

* `StackEscape.Program.accepts_checkMembers` — walks without errors keep what is known.
* `StackEscape.Program.recorded_iff_of_isOk` — exactly the expressions of bodies are recorded, and
  none was given up.
* `StackEscape.Program.respects_of_isOk` — nothing flows out that does not live long enough.
-/

set_option autoImplicit false

namespace StackEscape

/-- The records of two bodies; those of the second come first. -/
theorem Facts.pair?_extend (f g : Facts) (id : NodeId) :
    (f.extend g).pair? id = (g.pair? id).or (f.pair? id) := Table.get?_merge _ _ _

namespace Program

variable {p : Program} {runtime : Bool} {T : Tables} {m : Member} {body : List Stmt} {strict : Prop}
  {caps : Capabilities} {facts : Facts}

/-! ## One member -/

/-- A member without a body has no sites. -/
theorem sites_eq_nil (h : m.decl.body = none) : m.sites = [] := by
  rw [Member.sites, h]

/-- A member without a body leaves everything as it is. -/
theorem checkMember_of_none (h : m.decl.body = none) :
    p.checkMember runtime T m = ({}, T) := by
  rw [checkMember, h]

/-- A member with a body yields what the walk over it finds. -/
theorem checkMember_of_some (h : m.decl.body = some body) :
    p.checkMember runtime T m =
      (⟨(p.walkMember runtime T m body).errors, (p.walkMember runtime T m body).facts⟩,
        (p.walkMember runtime T m body).tables) := by
  rw [checkMember, h]

/-- Only expressions of the member's body are recorded. -/
theorem checkMember_frame {id : NodeId} (hid : id ∉ Site.visitedIds m.sites) :
    (p.checkMember runtime T m).1.facts.pair? id = none := by
  cases h : m.decl.body with
  | none => rw [checkMember_of_none h]; rfl
  | some body => rw [checkMember_of_some h]; exact walkMember_frame h hid

/-- What is asked of a program. Some results need distinct keys and local functions without type
parameters as well. -/
structure WellFormed (p : Program) (strict : Prop) : Prop where
  /-- Positional patterns have component types for all their parts. -/
  regular : p.RegularPatterns
  /-- Annotations on members are well placed. -/
  placed : ∀ m ∈ p.members, StackEscape.placementErrors m.owner m.decl m.key false = []
  /-- Local functions have no type parameters. -/
  plain : strict → p.PlainLocalFunctions
  /-- Keys are distinct. -/
  keys : strict → p.DistinctKeys

/-- If there is no error at the end, the annotations on local functions are well placed too. -/
theorem WellFormed.sound (h : p.WellFormed strict) (hm : m ∈ p.members)
    (hbody : m.decl.body = some body) (he : (p.walkMember runtime T m body).errors = []) :
    Inspection.Sound ⟨⟨p, m, runtime⟩, caps, facts, strict⟩ where
  mem := hm
  regular := h.regular m hm
  placed := by
    refine ⟨h.placed, fun d hd => ?_⟩
    obtain ⟨x, hx, hxd⟩ := List.mem_filterMap.1 hd
    exact (walkMember_reaches hbody (h.regular m hm) he x hx).placed d hxd
  plain hst := h.plain hst m hm
  keys := h.keys

/-! ## Some members -/

/-- What is known after the walks over some members, if there is no error at the end. -/
structure Accepts (p : Program) (runtime : Bool) (caps : Capabilities) (facts : Facts)
    (strict : Prop) (ms : List Member) (found : Facts) (T : Tables) : Prop where
  /-- The filed contracts are valid. -/
  valid : T.Valid
  /-- The filed contracts are those of the declarations. -/
  tables : strict → T.Exact p caps
  /-- All expressions are recorded. -/
  recorded : ∀ m ∈ ms, ∀ id ∈ Site.visitedIds m.sites, (found.pair? id).isSome
  /-- None was given up. -/
  intact : ∀ id pair, found.pair? id = some pair → pair.isInvalid = false
  /-- Nothing flows out that does not live long enough. -/
  respects : strict → ∀ m ∈ ms, ∀ x ∈ m.sites, x.Respects ⟨p, m, runtime⟩ caps facts

/-- The walk over a member from tables with the contracts of the declarations. -/
theorem accepts_checkMember (h : p.WellFormed strict) (hm : m ∈ p.members) (hv : T.Valid)
    (hx : strict → T.Exact p caps) (hids : (Site.visitedIds m.sites).Nodup)
    (he : (p.checkMember runtime T m).1.errors = [])
    (hw : (p.checkMember runtime T m).1.facts.Within facts) :
    p.Accepts runtime caps facts strict [m] (p.checkMember runtime T m).1.facts
      (p.checkMember runtime T m).2 := by
  cases hbody : m.decl.body with
  | none =>
    rw [checkMember_of_none hbody]
    refine ⟨hv, hx, ?_, fun id pair hid => ?_, ?_⟩
    · simp [sites_eq_nil hbody]
    · simp [Facts.pair?, Facts.empty] at hid
    · simp [sites_eq_nil hbody]
  | some body =>
    rw [checkMember_of_some hbody] at he hw ⊢
    have hI : Inspection.Sound ⟨⟨p, m, runtime⟩, caps, facts, strict⟩ := h.sound hm hbody he
    have hsteps : Relation.ReflTransGen (Surroundings.TableStep ⟨p, m, runtime⟩) T
        (p.walkMember runtime T m body).tables := walkMember_tables hm hbody
    obtain ⟨hintact, hrespects⟩ := walkMember_run hI hbody hv hx hids he hw
    refine ⟨hv.steps hI.placed hsteps,
      fun hst => (hx hst).steps (h.keys hst) hm (h.plain hst m hm) hsteps, ?_, hintact, ?_⟩
    · intro m' hm' id hid
      obtain rfl := List.mem_singleton.1 hm'
      obtain ⟨x, hx', hxid⟩ := List.mem_filterMap.1 hid
      exact (walkMember_reaches hbody (h.regular m' hm) he x hx').recorded id hxid
    · intro hst m' hm'
      obtain rfl := List.mem_singleton.1 hm'
      exact hrespects hst

/-- The last of some members is walked after all the others. -/
theorem checkMembers_append_singleton (ms : List Member) (m : Member) :
    p.checkMembers runtime T (ms ++ [m]) =
      ((p.checkMembers runtime T ms).1.merge
          (p.checkMember runtime (p.checkMembers runtime T ms).2 m).1,
        (p.checkMember runtime (p.checkMembers runtime T ms).2 m).2) := by
  simp [checkMembers, List.foldl_append]

/-- Only expressions of the members' bodies are recorded. -/
theorem checkMembers_frame {ms : List Member} {id : NodeId}
    (hid : id ∉ ms.flatMap fun m => Site.visitedIds m.sites) :
    (p.checkMembers runtime T ms).1.facts.pair? id = none := by
  induction ms using List.reverseRecOn with
  | nil => rfl
  | append_singleton ms m ih =>
    simp only [List.flatMap_append, List.flatMap_singleton, List.mem_append, not_or] at hid
    rw [checkMembers_append_singleton, BodyResult.merge, Facts.pair?_extend, ih hid.1,
      checkMember_frame hid.2]
    rfl

/-- The walks over some members, one after the other. -/
theorem accepts_checkMembers (h : p.WellFormed strict) (hv : T.Valid)
    (hx : strict → T.Exact p caps) {ms : List Member} (hms : ms ⊆ p.members)
    (hids : (ms.flatMap fun m => Site.visitedIds m.sites).Nodup)
    (he : (p.checkMembers runtime T ms).1.errors = [])
    (hw : (p.checkMembers runtime T ms).1.facts.Within facts) :
    p.Accepts runtime caps facts strict ms (p.checkMembers runtime T ms).1.facts
      (p.checkMembers runtime T ms).2 := by
  induction ms using List.reverseRecOn with
  | nil =>
    refine ⟨hv, hx, by simp, fun id pair hid => ?_, by simp⟩
    simp [checkMembers, Facts.pair?, Facts.empty] at hid
  | append_singleton ms m ih =>
    obtain ⟨hms', hm⟩ := List.append_subset.1 hms
    have hmem : m ∈ p.members := hm (List.mem_singleton_self m)
    simp only [List.flatMap_append, List.flatMap_singleton] at hids
    obtain ⟨hnd, hnd', hdisj⟩ := List.nodup_append.1 hids
    rw [checkMembers_append_singleton] at he hw ⊢
    obtain ⟨he₁, he₂⟩ := List.append_eq_nil_iff.1 he
    -- What the earlier members record, the last one leaves alone.
    have hkeeps (id : NodeId) (hsome : ((p.checkMembers runtime T ms).1.facts.pair? id).isSome) :
        (p.checkMember runtime (p.checkMembers runtime T ms).2 m).1.facts.pair? id = none := by
      refine checkMember_frame fun hid => ?_
      rw [checkMembers_frame fun hid' => hdisj id hid' id hid rfl] at hsome
      exact absurd hsome (by simp)
    have hmerge (id : NodeId) : (BodyResult.merge (p.checkMembers runtime T ms).1
        (p.checkMember runtime (p.checkMembers runtime T ms).2 m).1).facts.pair? id =
          ((p.checkMember runtime (p.checkMembers runtime T ms).2 m).1.facts.pair? id).or
            ((p.checkMembers runtime T ms).1.facts.pair? id) := Facts.pair?_extend _ _ _
    have hfirst := ih hms' hnd he₁ fun id pair hid => by
      refine hw id pair ?_
      rw [hmerge, hkeeps id (by simp [hid]), hid]
      rfl
    have hlast := accepts_checkMember h hmem hfirst.valid hfirst.tables hnd' he₂
      fun id pair hid => hw id pair (by rw [hmerge, hid]; rfl)
    refine ⟨hlast.valid, hlast.tables, ?_, ?_, ?_⟩
    · intro m' hm' id hid
      rw [hmerge, Option.isSome_or, Bool.or_eq_true]
      rcases List.mem_append.1 hm' with hm' | hm'
      · exact Or.inr (hfirst.recorded m' hm' id hid)
      · exact Or.inl (hlast.recorded m' hm' id hid)
    · intro id pair hid
      rw [hmerge, Option.or_eq_some_iff] at hid
      rcases hid with hid | ⟨_, hid⟩
      · exact hlast.intact id pair hid
      · exact hfirst.intact id pair hid
    · intro hst m' hm'
      rcases List.mem_append.1 hm' with hm' | hm'
      · exact hfirst.respects hst m' hm'
      · exact hlast.respects hst m' hm'

/-! ## A whole run -/

/-- Only members with bodies have sites. -/
theorem flatMap_bodies (p : Program) :
    (p.bodies.flatMap fun m => Site.visitedIds m.sites) = p.visitedIds := by
  unfold bodies visitedIds
  induction p.members with
  | nil => rfl
  | cons m ms ih =>
    cases h : m.decl.body with
    | none => simpa [List.filter_cons, h, sites_eq_nil h] using ih
    | some body => simpa [List.filter_cons, h] using ih

/-- By default all bodies are walked, with the capabilities of the declarations. -/
theorem analyze_default (p : Program) : p.analyze {} =
    { declarationErrors := (p.checkDeclarations true .empty).2
      escapeErrors := p.contractErrors ++
        (p.checkMembers true ⟨(p.checkDeclarations true .empty).1, .empty⟩ p.bodies).1.errors
      facts :=
        (p.checkMembers true ⟨(p.checkDeclarations true .empty).1, .empty⟩ p.bodies).1.facts
      skipped := []
      tables :=
        (p.checkMembers true ⟨(p.checkDeclarations true .empty).1, .empty⟩ p.bodies).2 } := by
  have hall : (p.bodies.filter fun _ => true) = p.bodies := List.filter_true _
  have hnone : (p.bodies.filter fun _ => false) = [] := List.filter_false _
  simp [analyze, hall, hnone]

/-- Only expressions of bodies are recorded. -/
theorem analyze_frame {id : NodeId} (hid : id ∉ p.visitedIds) :
    (p.analyze {}).facts.pair? id = none := by
  rw [analyze_default]
  exact checkMembers_frame (by rwa [flatMap_bodies])

/-- What is known of a program without errors. -/
theorem accepts_of_isOk (hids : p.DistinctIds) (hreg : p.RegularPatterns)
    (hplain : strict → p.PlainLocalFunctions) (hkeys : strict → p.DistinctKeys)
    (hok : (p.analyze {}).isOk = true) :
    p.Accepts true (p.checkDeclarations true .empty).1 (p.analyze {}).facts strict p.bodies
      (p.analyze {}).facts (p.analyze {}).tables := by
  rw [analyze_default] at hok ⊢
  simp only [Analysis.isOk, Bool.and_eq_true, List.isEmpty_iff, List.append_eq_nil_iff] at hok
  obtain ⟨_, hcontracts, hbodies⟩ := hok
  have hwf : p.WellFormed strict :=
    ⟨hreg, List.flatMap_eq_nil_iff.1 (List.append_eq_nil_iff.1 hcontracts).1, hplain, hkeys⟩
  refine accepts_checkMembers hwf (fun k c hc => by simp at hc) (fun _ => .empty p _)
    (List.filter_subset_self _) ?_ hbodies fun id pair hid => hid
  rw [flatMap_bodies]
  exact (List.nodup_append.1 hids).1

/-- If a run finds no error, exactly the expressions of bodies have a record, except the targets of
by-value assignments to properties, and no record was given up. -/
theorem recorded_iff_of_isOk (hids : p.DistinctIds) (hreg : p.RegularPatterns)
    (hok : (p.analyze {}).isOk = true) :
    (∀ id, ((p.analyze {}).facts.pair? id).isSome ↔ id ∈ p.exprIds ∧ id ∉ p.setterTargets) ∧
      ∀ id pair, (p.analyze {}).facts.pair? id = some pair → pair.isInvalid = false := by
  have h : p.Accepts true _ _ False p.bodies (p.analyze {}).facts _ :=
    accepts_of_isOk hids hreg False.elim False.elim hok
  refine ⟨fun id => ⟨fun hsome => ?_, fun hid => ?_⟩, h.intact⟩
  · have hid : id ∈ p.visitedIds := by
      by_contra hnot
      rw [analyze_frame hnot] at hsome
      exact absurd hsome (by simp)
    have hdisj := (List.nodup_append.1 hids).2.2
    exact ⟨List.mem_append_left _ hid, fun hset => hdisj id hid id hset rfl⟩
  · have hvisited : id ∈ p.visitedIds := (List.mem_append.1 hid.1).resolve_right hid.2
    rw [← flatMap_bodies] at hvisited
    obtain ⟨m, hm, hmem⟩ := List.mem_flatMap.1 hvisited
    exact h.recorded m hm id hmem

/-- The slots are such a program. -/
theorem recorded_iff_of_isOk_slots :
    Slots.program.DistinctIds ∧ Slots.program.RegularPatterns ∧
      (Slots.program.analyze {}).isOk = true ∧
      (∀ id, ((Slots.program.analyze {}).facts.pair? id).isSome ↔
        id ∈ Slots.program.exprIds ∧ id ∉ Slots.program.setterTargets) ∧
      ∀ id pair, (Slots.program.analyze {}).facts.pair? id = some pair → pair.isInvalid = false :=
  ⟨by decide +kernel, by decide +kernel, by decide +kernel,
    recorded_iff_of_isOk (by decide +kernel) (by decide +kernel) (by decide +kernel)⟩

/-- If a run finds no error, nothing flows out of any body that does not live long enough. -/
theorem respects_of_isOk (hids : p.DistinctIds) (hkeys : p.DistinctKeys)
    (hplain : p.PlainLocalFunctions) (hreg : p.RegularPatterns)
    (hok : (p.analyze {}).isOk = true) :
    ∀ m ∈ p.members, ∀ x ∈ m.sites,
      x.Respects ⟨p, m, true⟩ (p.checkDeclarations true .empty).1 (p.analyze {}).facts := by
  intro m hm x hx
  have h : p.Accepts true _ _ True p.bodies (p.analyze {}).facts _ :=
    accepts_of_isOk hids hreg (fun _ => hplain) (fun _ => hkeys) hok
  cases hbody : m.decl.body with
  | none =>
    rw [sites_eq_nil hbody] at hx
    exact absurd hx List.not_mem_nil
  | some body =>
    have hmem : m ∈ p.bodies := List.mem_filter.2 ⟨hm, by rw [hbody]; rfl⟩
    exact h.respects trivial m hmem x hx

/-- The slots are such a program. -/
theorem respects_of_isOk_slots :
    Slots.program.DistinctIds ∧ Slots.program.DistinctKeys ∧ Slots.program.PlainLocalFunctions ∧
      Slots.program.RegularPatterns ∧ (Slots.program.analyze {}).isOk = true ∧
      ∀ m ∈ Slots.program.members, ∀ x ∈ m.sites,
        x.Respects ⟨Slots.program, m, true⟩ (Slots.program.checkDeclarations true .empty).1
          (Slots.program.analyze {}).facts :=
  ⟨by decide +kernel, by decide +kernel, by decide +kernel, by decide +kernel, by decide +kernel,
    respects_of_isOk (by decide +kernel) (by decide +kernel) (by decide +kernel)
      (by decide +kernel) (by decide +kernel)⟩

end Program

end StackEscape
