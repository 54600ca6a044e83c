import StackEscape.Proofs.BodyRepeating
import StackEscape.Proofs.ReorderedDeclarations
import StackEscape.Proofs.Transparency

/-!
# Runs over types in another order

Whether a type is declared before or after those that refer to it makes no difference to a run: the
same capabilities are filed, the same errors are found, the same is recorded of every expression and
the same copies are noted, though errors and copies come in some other order. This takes
declarations that do not share a key, and expressions that do not share an identifier. Type
parameters of one member must not share a name either: if two of them do, they share a key, and then
what is filed for it depends on the order.

## Main results

* `StackEscape.BodyResult.errors_mergeAll`, `facts_mergeAll` — the results of several bodies.
* `StackEscape.Program.Reordered.isolated_eq` — a member yields the same.
* `StackEscape.Program.analyze_reordered` — whole runs.
* `StackEscape.Winches.order_matters` — with two type parameters of one name, the order matters.
-/

set_option autoImplicit false

namespace StackEscape

/-- The null tests of two bodies; those of the second come first. -/
theorem Facts.nullTest?_extend (f g : Facts) (id : NodeId) :
    (f.extend g).nullTest? id = (g.nullTest? id).or (f.nullTest? id) := Table.get?_merge _ _ _

/-! ## Searches in another order -/

/-- If only one element can be found, it is found in any order. -/
theorem findSome?_perm {α β : Type} {l l' : List α} (h : l.Perm l') {f : α → Option β}
    (hunique : ∀ a ∈ l, ∀ b ∈ l, (f a).isSome → (f b).isSome → a = b) :
    l'.findSome? f = l.findSome? f := by
  cases hl : l.findSome? f with
  | none =>
    rw [List.findSome?_eq_none_iff] at hl ⊢
    exact fun a ha => hl a (h.mem_iff.2 ha)
  | some v =>
    obtain ⟨a, ha, hv⟩ := List.exists_of_findSome?_eq_some hl
    cases hl' : l'.findSome? f with
    | none =>
      rw [List.findSome?_eq_none_iff] at hl'
      rw [hl' a (h.mem_iff.1 ha)] at hv
      exact absurd hv (by simp)
    | some w =>
      obtain ⟨b, hb, hw⟩ := List.exists_of_findSome?_eq_some hl'
      obtain rfl := hunique a ha b (h.mem_iff.2 hb) (by rw [hv]; rfl) (by rw [hw]; rfl)
      exact hw.symm.trans hv

/-! ## Results of several bodies -/

namespace BodyResult

/-- A list that grows with each body. -/
theorem flatMap_mergeAll {β : Type} {f : BodyResult → List β} (hnil : f {} = [])
    (hmerge : ∀ a b : BodyResult, f (a.merge b) = f a ++ f b) (results : List BodyResult) :
    f (mergeAll results) = results.flatMap f := by
  induction results using List.reverseRecOn with
  | nil => exact hnil
  | append_singleton results r ih =>
    rw [mergeAll, List.foldl_append, List.flatMap_append, ← ih, List.flatMap_singleton]
    exact hmerge _ _

/-- The errors of several bodies. -/
theorem errors_mergeAll (results : List BodyResult) :
    (mergeAll results).errors = results.flatMap BodyResult.errors :=
  flatMap_mergeAll rfl (fun _ _ => rfl) results

/-- The copies of several bodies. -/
theorem defensiveCopies_mergeAll (results : List BodyResult) :
    (mergeAll results).facts.defensiveCopies =
      results.flatMap fun r => r.facts.defensiveCopies :=
  flatMap_mergeAll (f := fun r => r.facts.defensiveCopies) rfl (fun _ _ => rfl) results

/-- What is recorded last in several bodies counts. -/
theorem facts_mergeAll {β : Type} {f : Facts → Option β} (hnone : f {} = none)
    (hextend : ∀ a b : Facts, f (a.extend b) = (f b).or (f a)) (results : List BodyResult) :
    f (mergeAll results).facts = results.reverse.findSome? fun r => f r.facts := by
  induction results using List.reverseRecOn with
  | nil => exact hnone
  | append_singleton results r ih =>
    have hlast : f (mergeAll (results ++ [r])).facts =
        (f r.facts).or (f (mergeAll results).facts) := by
      rw [mergeAll, List.foldl_append]
      exact hextend _ _
    rw [hlast, ih, List.reverse_append, List.reverse_singleton, List.singleton_append,
      List.findSome?_cons]
    cases f r.facts <;> rfl

end BodyResult

namespace Program

variable {p q : Program} {runtime : Bool} {m n : Member}

/-- No two bodies have an expression of the same identifier. -/
theorem DistinctIds.member_eq (h : p.DistinctIds) (hm : m ∈ p.members) (hn : n ∈ p.members)
    {id : NodeId} (hid : id ∈ Site.visitedIds m.sites) (hid' : id ∈ Site.visitedIds n.sites) :
    m = n := by
  have hnd : (p.members.flatMap fun m => Site.visitedIds m.sites).Nodup := (List.nodup_append.1 h).1
  have : Std.Symm (Function.onFun List.Disjoint fun m : Member => Site.visitedIds m.sites) :=
    ⟨fun _ _ hdisj => hdisj.symm⟩
  by_contra hne
  exact (List.nodup_flatMap.1 hnd).2.forall hm hn hne hid hid'

/-- No two members share a key or the name of two type parameters. -/
theorem DistinctKeys.distinctDeclarations (h : p.DistinctKeys)
    (hparams : ∀ m ∈ p.members, (m.decl.typeParams.map TypeParam.name).Nodup) :
    p.DistinctDeclarations :=
  ⟨h.sublist ((List.Sublist.refl _).append (List.sublist_append_left _ _)), hparams⟩

namespace Reordered

/-- In any order, no two declarations share a key. -/
theorem distinctKeys (h : p.Reordered q) (hp : p.DistinctKeys) : q.DistinctKeys := by
  have htypes : p.typeNames.Perm q.typeNames := h.perm.map TypeDecl.name
  have hmembers : p.memberKeys.Perm q.memberKeys := h.members_perm.map Member.key
  have hlocals : p.localKeys.Perm q.localKeys := h.members_perm.flatMap_right _
  exact (htypes.dedup.append (hmembers.append hlocals)).nodup_iff.1 hp

/-- A member yields the same right after the check of declarations. -/
theorem isolated_eq (h : p.Reordered q) (hkeys : p.DistinctKeys) (hp : p.DistinctDeclarations)
    (runtime : Bool) (hm : m ∈ p.members) : q.isolated runtime m = p.isolated runtime m := by
  have hcaps := h.get?_eq hp runtime
  have halike : (q.declaredTables runtime).Alike ⟨p, m, runtime⟩ (p.declaredTables runtime) :=
    ⟨fun k _ => hcaps k trivial, fun _ _ => rfl, fun _ _ c hc => by simp [declaredTables] at hc,
      fun _ _ c hc => by simp [declaredTables] at hc⟩
  rw [isolated, isolated, h.sameSymbols.checkMember_eq]
  exact checkMember_alike hkeys hm halike

/-- The same bodies are skipped. -/
theorem skipped_perm (h : p.Reordered q) (hp : p.DistinctDeclarations) (options : Options) :
    (q.analyze options).skipped.Perm (p.analyze options).skipped := by
  have hdecls := h.declarationErrors_perm hp options.runtimeSupport
  have hcontracts := h.contractErrors_perm hp
  have hmalformed :
      isMalformed (q.checkDeclarations options.runtimeSupport .empty).2 q.contractErrors =
        isMalformed (p.checkDeclarations options.runtimeSupport .empty).2 p.contractErrors := by
    funext m
    simp only [isMalformed, hdecls.any_eq, hcontracts.any_eq]
  have hskipped (r : Program) : (r.analyze options).skipped = (r.bodies.filter fun m =>
      options.stopOnDeclarationErrors &&
        isMalformed (r.checkDeclarations options.runtimeSupport .empty).2 r.contractErrors m).map
          Member.key := rfl
  rw [hskipped, hskipped, hmalformed]
  exact ((h.members_perm.symm.filter _).filter _).map _

end Reordered

/-- What is recorded of an expression by bodies that have no expression in common does not depend on
their order. -/
theorem DistinctIds.facts_mergeAll_perm (h : p.DistinctIds) {ms ns : List Member}
    (hms : ms ⊆ p.members) (hperm : ms.Perm ns) {β : Type} {f : Facts → Option β}
    (hnone : f {} = none) (hextend : ∀ a b : Facts, f (a.extend b) = (f b).or (f a)) {id : NodeId}
    (yields : Member → BodyResult)
    (hframe : ∀ m, id ∉ Site.visitedIds m.sites → f (yields m).facts = none) :
    f (BodyResult.mergeAll (ns.map yields)).facts =
      f (BodyResult.mergeAll (ms.map yields)).facts := by
  rw [BodyResult.facts_mergeAll hnone hextend, BodyResult.facts_mergeAll hnone hextend]
  have horder : (ms.map yields).reverse.Perm (ns.map yields).reverse :=
    (List.reverse_perm _).trans ((hperm.map yields).trans (List.reverse_perm _).symm)
  refine findSome?_perm horder fun a ha b hb hfound hfound' => ?_
  obtain ⟨m, hm, rfl⟩ := List.mem_map.1 (List.mem_reverse.1 ha)
  obtain ⟨n, hn, rfl⟩ := List.mem_map.1 (List.mem_reverse.1 hb)
  have hvisited {m : Member} (hfound : (f (yields m).facts).isSome) :
      id ∈ Site.visitedIds m.sites := by
    by_contra hid
    rw [hframe m hid] at hfound
    exact absurd hfound (by simp)
  rw [h.member_eq (hms hm) (hms hn) (hvisited hfound) (hvisited hfound')]

/-- **The order of types.** If each type is declared once, no two types, members or local functions
share a key, no two type parameters of a member share a name and no two expressions share an
identifier, then a run over the same types in another order files the same capabilities, finds the
same errors of declarations and the same errors of contracts and bodies, up to their order, records
the same of every expression, and notes the same copies, up to their order.

**Proof sketch.** At the end the table holds of each type what its own clauses say, and of each member
what it is owed, neither of which depends on the order. The errors of declarations and contracts are
found type by type. A body yields what it yields right after the check of declarations, and that
depends on the table and on what names mean only. Its expressions are its own, so what it records of
them is not recorded anew by other bodies. -/
theorem analyze_reordered (h : p.Reordered q) (hkeys : p.DistinctKeys) (hids : p.DistinctIds)
    (hparams : ∀ m ∈ p.members, (m.decl.typeParams.map TypeParam.name).Nodup) (options : Options) :
    (∀ runtime k, (q.checkDeclarations runtime .empty).1.get? k =
      (p.checkDeclarations runtime .empty).1.get? k) ∧
    (q.analyze options).declarationErrors.Perm (p.analyze options).declarationErrors ∧
    (q.analyze options).escapeErrors.Perm (p.analyze options).escapeErrors ∧
    (∀ id, (q.analyze options).facts.pair? id = (p.analyze options).facts.pair? id ∧
      (q.analyze options).facts.nullTest? id = (p.analyze options).facts.nullTest? id) ∧
    (q.analyze options).facts.defensiveCopies.Perm (p.analyze options).facts.defensiveCopies ∧
    (q.analyze options).skipped.Perm (p.analyze options).skipped := by
  have hp := hkeys.distinctDeclarations hparams
  have hskipped := h.skipped_perm hp options
  obtain ⟨hdecls, herrors, hfacts⟩ := analyze_eq hkeys options
  obtain ⟨hdecls', herrors', hfacts'⟩ := analyze_eq (h.distinctKeys hkeys) options
  let walked (r : Program) : List Member :=
    r.bodies.filter fun m => m.key ∉ (r.analyze options).skipped
  have hmembers : walked p ⊆ p.members :=
    List.Subset.trans (List.filter_subset_self _) (List.filter_subset_self _)
  have hwalked : (walked p).Perm (walked q) := by
    simp only [walked, hskipped.mem_iff]
    exact (h.members_perm.filter _).filter _
  -- In both orders a body yields the same.
  have hyields : (walked q).map (q.isolated options.runtimeSupport) =
      (walked q).map (p.isolated options.runtimeSupport) :=
    List.map_congr_left fun m hm =>
      h.isolated_eq hkeys hp options.runtimeSupport (hmembers (hwalked.mem_iff.2 hm))
  have hresults := (hwalked.symm.map (p.isolated options.runtimeSupport))
  rw [hyields] at herrors' hfacts'
  refine ⟨fun runtime k => h.get?_eq hp runtime k trivial, ?_, ?_, fun id => ⟨?_, ?_⟩, ?_, hskipped⟩
  · rw [hdecls, hdecls']
    exact h.declarationErrors_perm hp options.runtimeSupport
  · rw [herrors, herrors', BodyResult.errors_mergeAll, BodyResult.errors_mergeAll]
    exact (h.contractErrors_perm hp).append (hresults.flatMap_right _)
  · rw [hfacts, hfacts']
    exact hids.facts_mergeAll_perm (f := fun k => k.pair? id) hmembers hwalked rfl
      (fun a b => Facts.pair?_extend a b id) _ fun _ hid => checkMember_frame hid
  · rw [hfacts, hfacts']
    exact hids.facts_mergeAll_perm (f := fun k => k.nullTest? id) hmembers hwalked rfl
      (fun a b => Facts.nullTest?_extend a b id) _ fun _ hid => nullTest?_checkMember hid
  · rw [hfacts, hfacts', BodyResult.defensiveCopies_mergeAll, BodyResult.defensiveCopies_mergeAll]
    exact hresults.flatMap_right _

/-- The slots, with the type that holds a reference after the class that uses it. -/
theorem analyze_reordered_slots :
    let q : Program := ⟨Slots.program.types.reverse⟩
    Slots.program.Reordered q ∧ Slots.program.DistinctKeys ∧ Slots.program.DistinctIds ∧
      (∀ m ∈ Slots.program.members, (m.decl.typeParams.map TypeParam.name).Nodup) ∧
      (q.analyze {}).escapeErrors.Perm (Slots.program.analyze {}).escapeErrors ∧
      ∀ id, (q.analyze {}).facts.pair? id = (Slots.program.analyze {}).facts.pair? id := by
  intro q
  have h : Slots.program.Reordered q := ⟨(List.reverse_perm _).symm, by decide +kernel⟩
  have hkeys : Slots.program.DistinctKeys := by decide +kernel
  have hids : Slots.program.DistinctIds := by decide +kernel
  have hparams : ∀ m ∈ Slots.program.members, (m.decl.typeParams.map TypeParam.name).Nodup := by
    decide +kernel
  obtain ⟨_, _, herrors, hfacts, _⟩ := analyze_reordered h hkeys hids hparams {}
  exact ⟨h, hkeys, hids, hparams, herrors, fun id => (hfacts id).1⟩

end Program

/-! ## Type parameters that share a name -/

namespace Winches

/-- A method that hauls something in. -/
def haul (id : NodeId) (params : List TypeParam) (lines : List Param)
    (overrides : Option MemberRef) : FnDecl :=
  ⟨id, "Haul", .method, default, params, lines, .nothing, [], none, overrides, none, .zero⟩

/-- A class with the method. -/
def winch (id : NodeId) (name : String) (decl : FnDecl) : TypeDecl :=
  ⟨id, name, .classType, false, false, [], [], [], [], [decl], .zero⟩

/-- A method that takes an array. Two of its type parameters have one name, and the second of them
may be stack-only. -/
def lower : TypeDecl :=
  winch 3 "Winch" (haul 4
    [⟨"T", [], .zero⟩, ⟨"U", [], .zero⟩, ⟨"U", [⟨.allowsRefStruct, .zero⟩], .zero⟩]
    [⟨"lines", .array (.param "U"), .none, false, [], .zero⟩] none)

/-- A method that overrides it, with one name for the other two. -/
def upper : TypeDecl :=
  winch 1 "Capstan" (haul 2 [⟨"A", [], .zero⟩, ⟨"A", [], .zero⟩, ⟨"B", [], .zero⟩] []
    (some ⟨.named "Winch" [], "Haul"⟩))

/-- If the method that overrides comes first, the array is refused: what the third type parameter
takes over is filed before the second one is looked at. In the other order it is accepted. -/
theorem order_matters :
    let p : Program := ⟨[upper, lower]⟩
    let q : Program := ⟨[lower, upper]⟩
    p.Reordered q ∧ p.DistinctKeys ∧ p.DistinctIds ∧
      ((p.checkDeclarations true .empty).1.get? ⟨"Winch.Haul", "U"⟩).map Capability.isStackOnly =
        some true ∧
      ((q.checkDeclarations true .empty).1.get? ⟨"Winch.Haul", "U"⟩).map Capability.isStackOnly =
        some false ∧
      (p.analyze {}).declarationErrors = [⟨.arrayOfStackOnlyType "U", .zero⟩] ∧
      (q.analyze {}).declarationErrors = [] := by
  intro p q
  have h : p.Reordered q := ⟨.swap _ _ _, by decide +kernel⟩
  exact ⟨h, by decide +kernel, by decide +kernel, by cbv, by cbv, by cbv, by cbv⟩

end Winches

end StackEscape
