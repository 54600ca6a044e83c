import StackEscape.Proofs.Accepted

/-!
# The shared tables are transparent

Contracts are built by whichever body first needs them, and the capabilities of local functions are
filed in the middle of a walk. Still, if no two declarations share a key, what the walk over a body
yields does not depend on the bodies that were walked before it.

## Main definitions

* `StackEscape.Program.declaredTables` — the tables after the check of declarations.
* `StackEscape.Program.isolated` — what the walk over a member yields from these tables.
* `StackEscape.Program.checkEach` — the results of bodies in the order of their walks.
* `StackEscape.BodyResult.mergeAll` — the results of several bodies.

## Main results

* `StackEscape.Program.checkMember_of_foreign` — what others filed does not change the result of a
  body.
* `StackEscape.Program.caches_transparent` — results do not depend on the order of the walks, nor on
  whether some bodies are skipped.
-/

set_option autoImplicit false

namespace StackEscape

/-! ## What others file -/

namespace Surroundings

/-- A step of the walk over the body of some other member. -/
def ForeignStep (env : Surroundings) (T U : Tables) : Prop :=
  ∃ m ∈ env.program.members, m ≠ env.member ∧ TableStep ⟨env.program, m, env.runtime⟩ T U

variable {env : Surroundings}

/-- Local functions of other members do not matter to the walked one. -/
theorem not_owner_of_foreign (hk : env.program.DistinctKeys)
    (hm : env.member ∈ env.program.members) {m : Member} (hm' : m ∈ env.program.members)
    (hne : m ≠ env.member) {d : FnDecl} (hd : d ∈ m.localFunctions) :
    ¬ env.Owner (m.localKey d) := by
  have hmem : m.localKey d ∈ env.program.localKeys :=
    Program.DistinctKeys.localKey_mem hm' hd
  rintro (hty | hmember | hlocal)
  · exact hk.localKey_not_mem_typeNames hmem hty
  · exact hk.localKey_not_mem_memberKeys hmem hmember
  · exact hne (hk.owner_eq hm' hm (List.mem_map_of_mem hd) hlocal)

/-- What other members file leaves tables alike. -/
theorem ForeignStep.alike (hk : env.program.DistinctKeys) (hm : env.member ∈ env.program.members)
    {T U V : Tables} (h : T.Alike env V) (hstep : env.ForeignStep T U) : U.Alike env V := by
  obtain ⟨m, hm', hne, hstep⟩ := hstep
  have hinj : ∀ m₁ ∈ env.program.members, ∀ m₂ ∈ env.program.members,
      m₁.key = m₂.key → m₁ = m₂ := fun _ h₁ _ h₂ => hk.member_eq h₁ h₂
  cases hstep with
  | @member m₁ hm₁ =>
    refine ⟨h.caps, fun k hmem => ?_, h.left.obtainMember hinj hm₁, h.right⟩
    have hlocal : k ∉ env.program.memberKeys :=
      hk.localKey_not_mem_memberKeys (List.mem_flatMap.2 ⟨env.member, hm, hmem⟩)
    have hother : k ≠ m₁.key := fun e => hlocal (e ▸ List.mem_map_of_mem hm₁)
    rw [Contracts.get?_obtain, if_neg hother]
    exact h.locals k hmem
  | @localFunction g d _ hd =>
    have hnot : ¬ env.Owner (Surroundings.localKey ⟨env.program, m, env.runtime⟩ d) :=
      not_owner_of_foreign hk hm hm' hne hd
    refine ⟨h.caps, fun k hmem => ?_, h.left.obtainOther (fun hkey => hnot ?_) _, h.right⟩
    · have hother : k ≠ Surroundings.localKey ⟨env.program, m, env.runtime⟩ d :=
        fun e => hnot (Or.inr (Or.inr (e ▸ hmem)))
      rw [Contracts.get?_obtain, if_neg hother]
      exact h.locals k hmem
    · exact Or.inr (Or.inl hkey)
  | @typeParams g d _ hd =>
    have hnot := not_owner_of_foreign hk hm hm' hne hd
    refine ⟨fun k hown => ?_, h.locals, h.left.fillOther (fun hkey => hnot ?_)
      (fun hkey => hnot ?_) _ _, h.right⟩
    · have hother : k.owner ≠ m.localKey d := fun e => hnot (e ▸ hown)
      exact (Capabilities.get?_fillOwn_of_ne hother T.caps _).trans (h.caps k hown)
    · exact Or.inr (Or.inl hkey)
    · exact Or.inl hkey

end Surroundings

/-- The results of several bodies. -/
def BodyResult.mergeAll (results : List BodyResult) : BodyResult := results.foldl merge {}

namespace Program

variable {p : Program} {runtime : Bool} {T U : Tables} {m : Member} {ms : List Member}

/-- Tables on which only capabilities are filed are alike to themselves. -/
theorem alike_self (env : Surroundings) (caps : Capabilities) :
    Tables.Alike env ⟨caps, .empty⟩ ⟨caps, .empty⟩ :=
  ⟨.refl _ _, fun _ _ => rfl, fun _ _ c hc => by simp at hc, fun _ _ c hc => by simp at hc⟩

/-- From alike tables a member is walked with the same contract, and the walks start in alike
states. -/
theorem alike_entry (hk : p.DistinctKeys) (hm : m ∈ p.members)
    (h : T.Alike ⟨p, m, runtime⟩ U) :
    p.entryContract T m = p.entryContract U m ∧
      (p.entry T m).Alike ⟨p, m, runtime⟩ (p.entry U m) := by
  obtain ⟨hcontract, htables⟩ := h.obtainMember (hk.apart hm runtime) hm
  refine ⟨hcontract, placed_entry p runtime T m, ?_, rfl, rfl, rfl, htables⟩
  change Context.ofFrame (m.frame (p.entryContract T m)) = .ofFrame (m.frame (p.entryContract U m))
  rw [show p.entryContract T m = p.entryContract U m from hcontract]

/-- From alike tables the walk over a body finds the same. -/
theorem walkMember_alike (hk : p.DistinctKeys) (hm : m ∈ p.members) {body : List Stmt}
    (hbody : m.decl.body = some body) (h : T.Alike ⟨p, m, runtime⟩ U) :
    (p.walkMember runtime T m body).Alike ⟨p, m, runtime⟩ (p.walkMember runtime U m body) := by
  have hapart := hk.apart hm runtime
  obtain ⟨hcontract, hentry⟩ := alike_entry hk hm h
  have hbind : p.bindMember runtime T m = p.bindMember runtime U m := by
    unfold bindMember
    rw [hcontract]
  have hbound := ((proper_bindMember p runtime T m).alike hapart _ _ hentry).2
  have hstart : (p.bodyEntry runtime T m body).Alike ⟨p, m, runtime⟩
      (p.bodyEntry runtime U m body) := by
    unfold bodyEntry
    rw [← hbind]
    exact hbound.withFunctions (direct_of_body hbody)
  rw [walkMember_eq, walkMember_eq]
  exact ((proper_body p runtime hbody).alike hapart _ _ hstart).2

/-- From alike tables a member yields the same. -/
theorem checkMember_alike (hk : p.DistinctKeys) (hm : m ∈ p.members)
    (h : T.Alike ⟨p, m, runtime⟩ U) :
    (p.checkMember runtime T m).1 = (p.checkMember runtime U m).1 := by
  cases hbody : m.decl.body with
  | none => rw [checkMember_of_none hbody, checkMember_of_none hbody]
  | some body =>
    have hwalk := walkMember_alike hk hm hbody h
    rw [checkMember_of_some hbody, checkMember_of_some hbody, hwalk.errors, hwalk.facts]

/-- What others filed does not change the result of a body. -/
theorem checkMember_of_foreign (hk : p.DistinctKeys) (hm : m ∈ p.members)
    (hself : T.Alike ⟨p, m, runtime⟩ T)
    (hsteps : Relation.ReflTransGen (Surroundings.ForeignStep ⟨p, m, runtime⟩) T U) :
    (p.checkMember runtime U m).1 = (p.checkMember runtime T m).1 := by
  have halike : U.Alike ⟨p, m, runtime⟩ T := by
    induction hsteps with
    | refl => exact hself
    | tail _ hstep ih => exact hstep.alike hk hm ih
  exact checkMember_alike hk hm halike

/-! ## Orders of walks -/

/-- The tables after the check of declarations. -/
def declaredTables (p : Program) (runtime : Bool) : Tables :=
  ⟨(p.checkDeclarations runtime .empty).1, .empty⟩

/-- What the walk over a member yields right after the check of declarations. -/
def isolated (p : Program) (runtime : Bool) (m : Member) : BodyResult :=
  (p.checkMember runtime (p.declaredTables runtime) m).1

/-- The result of each of some members, filed under its key, as they are walked one after the
other. -/
def checkEach (p : Program) (runtime : Bool) (T : Tables) (ms : List Member) :
    List (String × BodyResult) × Tables :=
  ms.foldl (fun (found, T) m =>
    let (result, T) := p.checkMember runtime T m
    (found ++ [(m.key, result)], T)) ([], T)

/-- What is filed by members other than the last one are foreign steps to it. -/
theorem foreign_checkMembers {before : List Member} (hbefore : before ⊆ p.members)
    (hnot : m ∉ before) :
    Relation.ReflTransGen (Surroundings.ForeignStep ⟨p, m, runtime⟩) T
      (p.checkMembers runtime T before).2 := by
  induction before using List.reverseRecOn with
  | nil => exact .refl
  | append_singleton before m' ih =>
    obtain ⟨hbefore, hm'⟩ := List.append_subset.1 hbefore
    simp only [List.mem_append, List.mem_singleton, not_or] at hnot
    have hmem : m' ∈ p.members := hm' (List.mem_singleton_self m')
    rw [checkMembers_append_singleton]
    refine (ih hbefore hnot.1).trans ?_
    cases hbody : m'.decl.body with
    | none => rw [checkMember_of_none hbody]
    | some body =>
      rw [checkMember_of_some hbody]
      exact Relation.ReflTransGen.mono (fun _ _ hstep => ⟨m', hmem, Ne.symm hnot.2, hstep⟩) _ _
        (walkMember_tables hmem hbody)

/-- The result of a member does not depend on the bodies that were walked before it. -/
theorem checkMember_after (hk : p.DistinctKeys) {before : List Member}
    (hbefore : before ⊆ p.members) (hm : m ∈ p.members) (hnot : m ∉ before) :
    (p.checkMember runtime (p.checkMembers runtime (p.declaredTables runtime) before).2 m).1 =
      p.isolated runtime m :=
  checkMember_of_foreign hk hm (alike_self _ _) (foreign_checkMembers hbefore hnot)

/-- The last of some members is walked after all the others. -/
theorem checkEach_append_singleton (ms : List Member) (m : Member) :
    p.checkEach runtime T (ms ++ [m]) =
      ((p.checkEach runtime T ms).1 ++
          [(m.key, (p.checkMember runtime (p.checkEach runtime T ms).2 m).1)],
        (p.checkMember runtime (p.checkEach runtime T ms).2 m).2) := by
  simp [checkEach, List.foldl_append]

/-- Keeping results apart files the same. -/
theorem checkEach_snd (p : Program) (runtime : Bool) (T : Tables) (ms : List Member) :
    (p.checkEach runtime T ms).2 = (p.checkMembers runtime T ms).2 := by
  induction ms using List.reverseRecOn with
  | nil => rfl
  | append_singleton ms m ih => rw [checkEach_append_singleton, checkMembers_append_singleton, ih]

/-- Every member has the result that it has on its own. -/
theorem checkEach_fst (hk : p.DistinctKeys) (hms : ms ⊆ p.members) (hnd : ms.Nodup) :
    (p.checkEach runtime (p.declaredTables runtime) ms).1 =
      ms.map fun m => (m.key, p.isolated runtime m) := by
  induction ms using List.reverseRecOn with
  | nil => rfl
  | append_singleton ms m ih =>
    obtain ⟨hms, hm⟩ := List.append_subset.1 hms
    obtain ⟨hnd, _, hdisj⟩ := List.nodup_append.1 hnd
    have hnot : m ∉ ms := fun hmem => hdisj m hmem m (List.mem_singleton_self m) rfl
    rw [checkEach_append_singleton, ih hms hnd, checkEach_snd,
      checkMember_after hk hms (hm (List.mem_singleton_self m)) hnot, List.map_append]
    rfl

/-- What members yield together is what they yield on their own, merged. -/
theorem checkMembers_fst (hk : p.DistinctKeys) (hms : ms ⊆ p.members) (hnd : ms.Nodup) :
    (p.checkMembers runtime (p.declaredTables runtime) ms).1 =
      .mergeAll (ms.map (p.isolated runtime)) := by
  induction ms using List.reverseRecOn with
  | nil => rfl
  | append_singleton ms m ih =>
    obtain ⟨hms, hm⟩ := List.append_subset.1 hms
    obtain ⟨hnd, _, hdisj⟩ := List.nodup_append.1 hnd
    have hnot : m ∉ ms := fun hmem => hdisj m hmem m (List.mem_singleton_self m) rfl
    rw [checkMembers_append_singleton, ih hms hnd,
      checkMember_after hk hms (hm (List.mem_singleton_self m)) hnot, List.map_append,
      BodyResult.mergeAll, BodyResult.mergeAll, List.foldl_append]
    rfl

/-- A result is found under its member's key. -/
theorem lookup_map_key (hk : p.DistinctKeys) (hms : ms ⊆ p.members) (hm : m ∈ ms)
    (f : Member → BodyResult) : (ms.map fun m => (m.key, f m)).lookup m.key = some (f m) := by
  induction ms with
  | nil => simp at hm
  | cons m' ms ih =>
    obtain ⟨hm', hms⟩ := List.cons_subset.1 hms
    by_cases hkey : m.key = m'.key
    · have hmem : m ∈ p.members := (List.mem_cons.1 hm).elim (fun e => e ▸ hm') fun h => hms h
      obtain rfl := hk.member_eq hmem hm' hkey
      simp
    · have hne : m ≠ m' := fun e => hkey (e ▸ rfl)
      have hbeq : (m.key == m'.key) = false := by simpa using hkey
      rw [List.map_cons, List.lookup_cons, hbeq]
      exact ih hms ((List.mem_cons.1 hm).resolve_left hne)

/-- No member occurs twice. -/
theorem nodup_bodies (hk : p.DistinctKeys) : p.bodies.Nodup := by
  have hkeys : (p.members.map Member.key).Nodup :=
    (List.nodup_append.1 (List.nodup_append.1 hk).2.1).1
  exact (hkeys.of_map _).filter _

/-- A run walks the bodies that it does not skip, and a skipped body is known by its key. -/
theorem analyze_eq (hk : p.DistinctKeys) (options : Options) :
    (p.analyze options).declarationErrors = (p.checkDeclarations options.runtimeSupport .empty).2 ∧
      (p.analyze options).escapeErrors = p.contractErrors ++
        (BodyResult.mergeAll ((p.bodies.filter fun m => m.key ∉ (p.analyze options).skipped).map
          (p.isolated options.runtimeSupport))).errors ∧
      (p.analyze options).facts =
        (BodyResult.mergeAll ((p.bodies.filter fun m => m.key ∉ (p.analyze options).skipped).map
          (p.isolated options.runtimeSupport))).facts := by
  have hbodies : p.bodies ⊆ p.members := List.filter_subset_self _
  let skips (m : Member) : Bool := options.stopOnDeclarationErrors &&
    isMalformed (p.checkDeclarations options.runtimeSupport .empty).2 p.contractErrors m
  have hwalked : (p.bodies.filter fun m => m.key ∉ (p.analyze options).skipped) =
      p.bodies.filter fun m => !skips m := by
    refine List.filter_congr fun m hm => ?_
    have hiff : m.key ∈ (p.analyze options).skipped ↔ skips m = true := by
      change m.key ∈ (p.bodies.filter skips).map Member.key ↔ _
      refine ⟨fun hmem => ?_, fun hs => List.mem_map_of_mem (List.mem_filter.2 ⟨hm, hs⟩)⟩
      obtain ⟨m', hm', hkey⟩ := List.mem_map.1 hmem
      obtain ⟨hm', hs⟩ := List.mem_filter.1 hm'
      obtain rfl := hk.member_eq (hbodies hm') (hbodies hm) hkey
      exact hs
    cases hs : skips m <;> simp [hiff, hs]
  have hresult : (p.checkMembers options.runtimeSupport (p.declaredTables options.runtimeSupport)
      (p.bodies.filter fun m => !skips m)).1 =
        .mergeAll ((p.bodies.filter fun m => !skips m).map (p.isolated options.runtimeSupport)) :=
    checkMembers_fst hk (List.Subset.trans (List.filter_subset_self _) hbodies)
      ((nodup_bodies hk).filter _)
  rw [hwalked, ← hresult]
  exact ⟨rfl, rfl, rfl⟩

/-- The shared tables are transparent. What a member yields does not depend on the bodies that were
walked before it. Bodies may be walked in any order, as long as their results are merged in program
order. And a run that skips bodies reports the same of declarations and contracts as one that does
not, and of the other bodies what that one reports of them. -/
theorem caches_transparent (hk : p.DistinctKeys) (runtime : Bool) :
    (∀ (before : List Member) (m : Member), before ⊆ p.members → m ∈ p.members → m ∉ before →
      (p.checkMember runtime (p.checkMembers runtime (p.declaredTables runtime) before).2 m).1 =
        p.isolated runtime m) ∧
    (∀ order : List Member, order.Perm p.bodies →
      BodyResult.mergeAll (p.bodies.map fun m =>
          ((p.checkEach runtime (p.declaredTables runtime) order).1.lookup m.key).getD {}) =
        (p.checkMembers runtime (p.declaredTables runtime) p.bodies).1) ∧
    ∀ parallel parallel' : Bool,
      let full := p.analyze ⟨runtime, parallel, false⟩
      let cut := p.analyze ⟨runtime, parallel', true⟩
      let all := BodyResult.mergeAll (p.bodies.map (p.isolated runtime))
      let kept := BodyResult.mergeAll ((p.bodies.filter fun m => m.key ∉ cut.skipped).map
        (p.isolated runtime))
      cut.declarationErrors = full.declarationErrors ∧
        full.escapeErrors = p.contractErrors ++ all.errors ∧ full.facts = all.facts ∧
        cut.escapeErrors = p.contractErrors ++ kept.errors ∧ cut.facts = kept.facts := by
  have hbodies : p.bodies ⊆ p.members := List.filter_subset_self _
  refine ⟨fun before m hbefore hm hnot => checkMember_after hk hbefore hm hnot, ?_, ?_⟩
  · intro order hperm
    have horder : order ⊆ p.members := List.Subset.trans hperm.subset hbodies
    rw [checkEach_fst hk horder (hperm.nodup_iff.2 (nodup_bodies hk)),
      checkMembers_fst hk hbodies (nodup_bodies hk)]
    refine congrArg BodyResult.mergeAll (List.map_congr_left fun m hm => ?_)
    rw [lookup_map_key hk horder (hperm.mem_iff.2 hm)]
    rfl
  · intro parallel parallel'
    obtain ⟨hdecls, herrors, hfacts⟩ := analyze_eq hk ⟨runtime, parallel, false⟩
    obtain ⟨hdecls', herrors', hfacts'⟩ := analyze_eq hk ⟨runtime, parallel', true⟩
    have hskipped : (p.analyze ⟨runtime, parallel, false⟩).skipped = [] := by
      simp [analyze]
    simp only [hskipped, List.not_mem_nil, not_false_eq_true, decide_true, List.filter_true]
      at herrors hfacts
    exact ⟨hdecls'.trans hdecls.symm, herrors, hfacts, herrors', hfacts'⟩

/-- The bodies of the slots, walked from the last to the first. -/
theorem caches_transparent_slots :
    Slots.program.DistinctKeys ∧
      BodyResult.mergeAll (Slots.program.bodies.map fun m =>
          ((Slots.program.checkEach true (Slots.program.declaredTables true)
            Slots.program.bodies.reverse).1.lookup m.key).getD {}) =
        (Slots.program.checkMembers true (Slots.program.declaredTables true)
          Slots.program.bodies).1 :=
  ⟨by decide +kernel,
    (caches_transparent (by decide +kernel) true).2.1 _ (List.reverse_perm _)⟩

end Program

end StackEscape
