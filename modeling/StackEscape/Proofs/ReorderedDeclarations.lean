import StackEscape.Proofs.Inheritance
import StackEscape.Proofs.Reordering

/-!
# Declarations in another order

The check of declarations goes over types and members in program order, and so does the check of
contracts. Both remember what they came across, and keep the first of what is filed or reported
under a key. If no two declarations share a key, the order of types still has no influence: the same
capabilities are filed, and the same errors are found in some other order.

## Main definitions

* `StackEscape.Declarations.soleErrors`, `wholeErrors` — what is wrong with a member and with a type
  that have no other parts.
* `StackEscape.Program.typeImplementationErrors` — implementations in a type that disagree with an
  interface.

## Main results

* `StackEscape.Program.Reordered.get?_eq` — the same capabilities are filed.
* `StackEscape.Declarations.errors_finished` — the errors of the pass, type by type.
* `StackEscape.Program.implementationErrors_eq` — the errors of implementations, type by type.
* `StackEscape.Program.Reordered.declarationErrors_perm`, `contractErrors_perm` — the same errors
  are found.
-/

set_option autoImplicit false

namespace StackEscape

/-! ## What is filed of types -/

namespace Declarations

variable {p : Program} {s : State} {ts : List TypeDecl}

/-- Without further parts every part of a type is its first one. -/
theorem firstParts_eq_self {seen : List String} (hnd : (ts.map TypeDecl.name).Nodup)
    (hseen : ∀ t ∈ ts, t.name ∉ seen) : firstParts seen ts = ts := by
  induction ts generalizing seen with
  | nil => rfl
  | cons t rest ih =>
    obtain ⟨hnot, hnd⟩ := List.nodup_cons.1 hnd
    have hfirst : seen.contains t.name = false := by simpa using hseen t (List.mem_cons_self ..)
    rw [firstParts, hfirst, if_neg Bool.false_ne_true, ih hnd fun u hu => ?_]
    have hname : u.name ≠ t.name := fun he => hnot (he ▸ List.mem_map_of_mem hu)
    exact List.not_mem_cons_of_ne_of_not_mem hname (hseen u (List.mem_cons_of_mem _ hu))

/-- Entering types leaves the type parameters of all others alone. -/
theorem get?_foldl_enterType {k : TypeParamKey} (hk : ∀ t ∈ ts, k.owner ≠ t.name) :
    (ts.foldl (enterType p) s).caps.get? k = s.caps.get? k :=
  List.foldlRecOn ts (enterType p) (motive := fun u => u.caps.get? k = s.caps.get? k) rfl
    fun u hu t ht => (Capabilities.get?_fillOwn_of_ne (hk t ht) u.caps t.typeParams).trans hu

/-- Of a type, that is filed what its own clauses say. -/
theorem get?_entered (hn : p.typeNames.Nodup) {t : TypeDecl} (ht : t ∈ p.types) {k : TypeParamKey}
    (hk : k.owner = t.name) :
    (entered p).caps.get? k = (Capabilities.fillOwn .empty p t.name t.typeParams []).get? k := by
  have hfirst : firstParts [] p.types = p.types :=
    firstParts_eq_self hn fun _ _ => List.not_mem_nil
  obtain ⟨before, later, htypes⟩ := List.append_of_mem ht
  rw [Program.typeNames, htypes, List.map_append, List.map_cons] at hn
  obtain ⟨-, hlater, hbefore⟩ := List.nodup_append.1 hn
  have hnone : (before.foldl (enterType p) ⟨.empty, [], []⟩).caps.Agree (· = t.name) .empty := by
    intro k hk
    refine get?_foldl_enterType fun u hu he => ?_
    exact hbefore u.name (List.mem_map_of_mem hu) t.name (List.mem_cons_self ..) (he.symm.trans hk)
  rw [entered, hfirst, htypes, List.foldl_append, List.foldl_cons, get?_foldl_enterType]
  · exact hnone.fillOwn (fun _ hf => absurd hf List.not_mem_nil) t.name t.typeParams k hk
  · exact fun u hu he => (List.nodup_cons.1 hlater).1
      (hk.symm.trans he ▸ List.mem_map_of_mem hu)

end Declarations

namespace Program

open Declarations

/-! ## What is owed to members -/

section Owed

variable {p q : Program} {index : Nat} {m root : Member} {r : TypeParam}

/-- One capability is owed only. -/
theorem Owed.unique {caps : Capabilities} {v w : Capability} (hv : p.Owed caps index m v)
    (hw : p.Owed caps index m w) : v = w := by
  cases hv with
  | root h =>
    cases hw with
    | root h' =>
      obtain ⟨rfl, rfl⟩ := h.unique h'
      rfl
    | unknown hnone => exact absurd h (hnone _ _)
  | unknown hnone =>
    cases hw with
    | root h => exact absurd h (hnone _ _)
    | unknown => rfl

/-- Where names mean the same, chains lead to the same root. -/
theorem TakesOver.of_sameSymbols (h : p.SameSymbols q) (hm : p.TakesOver index m root r) :
    q.TakesOver index m root r := by
  have hbases : q.base? = p.base? := by
    funext m
    rw [base?, base?, h.member]
  induction hm with
  | root hbase hq => exact .root (by rw [hbases, hbase]) hq
  | link hbase hq _ ih => exact .link (by rw [Refines, hbases, hbase]) hq ih

/-- Where names mean the same, the same is owed. -/
theorem Owed.of_sameSymbols (h : p.SameSymbols q) {caps : Capabilities} {v : Capability}
    (hv : p.Owed caps index m v) : q.Owed caps index m v := by
  cases hv with
  | root hm =>
    rw [← h.clause_eq]
    exact .root (hm.of_sameSymbols h)
  | unknown hnone => exact .unknown fun root r hm => hnone root r (hm.of_sameSymbols h.symm)

end Owed

/-! ## The same capabilities are filed -/

namespace Reordered

variable {p q : Program}

/-- In any order, no two declarations share a key. -/
theorem distinctDeclarations (h : p.Reordered q) (hp : p.DistinctDeclarations) :
    q.DistinctDeclarations where
  keys := by
    have htypes : p.typeNames.Perm q.typeNames := h.perm.map TypeDecl.name
    exact (htypes.dedup.append (h.members_perm.map Member.key)).nodup_iff.1 hp.keys
  names m hm := hp.names m (h.members_perm.mem_iff.2 hm)

/-- The same is filed of types. -/
theorem get?_entered (h : p.Reordered q) :
    (entered q).caps.Agree (fun _ => True) (entered p).caps := by
  intro k _
  by_cases hk : k.owner ∈ p.typeNames
  · obtain ⟨t, ht, hname⟩ := List.mem_map.1 hk
    rw [Declarations.get?_entered h.names ht hname.symm,
      Declarations.get?_entered h.symm.names (h.mem_types.2 ht) hname.symm,
      h.sameSymbols.fillOwn_eq]
  · have hnone {r : Program} (hr : k.owner ∉ r.typeNames) : (entered r).caps.get? k = none :=
      Option.eq_none_iff_forall_ne_some.2 fun v hv => hr (ownedBy_entered r k v hv)
    rw [hnone hk, hnone fun hq => hk (h.mem_typeNames.1 hq)]

/-- **The same capabilities are filed**, whatever the order of types is. -/
theorem get?_eq (h : p.Reordered q) (hp : p.DistinctDeclarations) (runtime : Bool) :
    (q.checkDeclarations runtime .empty).1.Agree (fun _ => True)
      (p.checkDeclarations runtime .empty).1 := by
  intro k _
  have hq := h.distinctDeclarations hp
  have hpIn := inherits_finished hp runtime
  have hqIn := inherits_finished hq runtime
  have htypes : (finished q runtime).caps.Agree (· ∈ p.typeNames) (finished p runtime).caps :=
    fun k hk => (hqIn.types k (h.mem_typeNames.2 hk)).symm.trans
      ((h.get?_entered k trivial).trans (hpIn.types k hk))
  by_cases hk : k.owner ∈ p.typeNames
  · exact htypes k hk
  by_cases hmember : ∃ m ∈ p.members, ∃ r ∈ m.decl.typeParams, k = ⟨m.key, r.name⟩
  · obtain ⟨m, hm, r, hr, rfl⟩ := hmember
    obtain ⟨index, hindex⟩ := List.mem_iff_getElem?.1 hr
    obtain ⟨v, hv, howed⟩ := exists_owed hp runtime hm hindex
    obtain ⟨w, hw, howed'⟩ := exists_owed hq runtime (h.members_perm.mem_iff.1 hm) hindex
    rw [hv, hw, ((howed'.of_sameSymbols h.sameSymbols.symm).of_agree htypes hm).unique howed]
  · have hnone : ∀ m ∈ p.members, ∀ r ∈ m.decl.typeParams, k ≠ ⟨m.key, r.name⟩ :=
      fun m hm r hr he => hmember ⟨m, hm, r, hr, he⟩
    exact (hqIn.others k (fun hq => hk (h.mem_typeNames.1 hq)) fun m hm =>
      hnone m (h.members_perm.mem_iff.2 hm)).trans (hpIn.others k hk hnone).symm

end Reordered

end Program

/-! ## Errors of declarations -/

namespace Capabilities.Agree

variable {own : String → Prop} {c d : Capabilities} {p : Program} {scope : GenericScope}
  {runtime : Bool}

/-- The same is wrong with a field. -/
theorem fieldErrors_eq (h : Agree own c d) (hs : scope.OwnedBy own)
    (hp : ∀ name ∈ p.typeNames, own name) (t : TypeDecl) :
    TypeEnv.fieldErrors ⟨p, c, scope, runtime⟩ t =
      TypeEnv.fieldErrors ⟨p, d, scope, runtime⟩ t := by
  have hcap : TypeEnv.stackOnly ⟨p, c, scope, runtime⟩ = TypeEnv.stackOnly ⟨p, d, scope, runtime⟩ :=
    TypeEnv.stackOnly_congr (h.of_eq hs)
  funext field
  simp only [TypeEnv.fieldErrors, hcap, h.typeErrors_eq hs hp]

/-- The same is wrong with a signature. -/
theorem signatureErrors_eq (h : Agree own c d) {m : Member} (hs : m.innerScope.OwnedBy own)
    (hp : ∀ name ∈ p.typeNames, own name) (runtime : Bool) :
    Declarations.signatureErrors p runtime c m = Declarations.signatureErrors p runtime d m := by
  simp only [Declarations.signatureErrors, h.typeErrors_eq hs hp]

end Capabilities.Agree

namespace Program.SameSymbols

variable {p q : Program}

/-- The same is wrong with a field. -/
theorem fieldErrors_eq (h : p.SameSymbols q) (caps : Capabilities) (scope : GenericScope)
    (runtime : Bool) (t : TypeDecl) : TypeEnv.fieldErrors ⟨q, caps, scope, runtime⟩ t =
      TypeEnv.fieldErrors ⟨p, caps, scope, runtime⟩ t := by
  have hcap := TypeEnv.stackOnly_congr (h.capability_eq caps scope runtime)
  funext field
  simp only [TypeEnv.fieldErrors, hcap, h.typeErrors_eq]

/-- The same is wrong with a signature. -/
theorem signatureErrors_eq (h : p.SameSymbols q) (runtime : Bool) (caps : Capabilities)
    (m : Member) : Declarations.signatureErrors q runtime caps m =
      Declarations.signatureErrors p runtime caps m := by
  simp only [Declarations.signatureErrors, h.typeErrors_eq]

end Program.SameSymbols

namespace Declarations

variable {p q : Program} {runtime : Bool}

/-- If every step of a pass adds errors that only depend on what it looks at, the pass adds these
errors. -/
theorem State.errors_foldl {α : Type} {f : State → α → State} {e : α → List TypeError}
    {l : List α} {s : State} (h : ∀ before a later, l = before ++ a :: later →
      (f (before.foldl f s) a).errors = (before.foldl f s).errors ++ e a) :
    (l.foldl f s).errors = s.errors ++ l.flatMap e := by
  induction l using List.reverseRecOn with
  | nil => simp
  | append_singleton l a ih =>
    have hbefore : (l.foldl f s).errors = s.errors ++ l.flatMap e :=
      ih fun before b later hl => h before b (later ++ [a]) (by rw [hl]; simp)
    rw [List.foldl_append, List.foldl_cons, List.foldl_nil, h l a [] rfl, hbefore]
    simp

/-- A pass looked at from a later state: every step of it starts with what is owed, and what it files
and reports is there later. -/
theorem State.errors_foldl_before {α : Type} {f : State → α → State} {e : α → List TypeError}
    {l : List α} {s u : State} (hs : s.caps.Inherits p)
    (hfiles : ∀ v : State, ∀ a ∈ l, v.caps.Inherits p → (f v a).caps.Inherits p)
    (hgrows : ∀ (v : State) a, v.Before (f v a)) (hu : (l.foldl f s).Before u)
    (h : ∀ before a later, l = before ++ a :: later → (before.foldl f s).caps.Inherits p →
      (f (before.foldl f s) a).Before u →
      (f (before.foldl f s) a).errors = (before.foldl f s).errors ++ e a) :
    (l.foldl f s).errors = s.errors ++ l.flatMap e := by
  refine State.errors_foldl fun before a later hl => h before a later hl ?_ ?_
  · refine Capabilities.Inherits.foldl State.caps (fun v b hb hv => hfiles v b ?_ hv) hs
    exact hl ▸ List.mem_append_left _ hb
  · rw [hl, List.foldl_append, List.foldl_cons] at hu
    exact (State.Before.foldl hgrows later _).trans hu

/-! ### Members -/

/-- What is wrong with a member that is no part of another one. -/
def soleErrors (p : Program) (runtime : Bool) (caps : Capabilities) (m : Member) : List TypeError :=
  (match m.decl.base with
    | some base =>
      m.decl.typeParams.filterMap (TypeParam.restatementError m.key) ++
        (if (p.member? base).isSome then []
          else [⟨.unknownBaseMember m.key base.display, m.decl.span⟩])
    | none => m.decl.typeParams.flatMap (TypeParam.clauseErrors runtime)) ++
    (cycleErrors m.decl.typeParams ++ signatureErrors p runtime caps m)

/-- The members of a type with their positions. -/
theorem mem_membersOf {name : String} {i j : Nat} {d : FnDecl} :
    ((i, j), d) ∈ p.membersOf name ↔
      ∃ t, p.types[i]? = some t ∧ t.name = name ∧ t.members[j]? = some d := by
  simp only [Program.membersOf, List.mem_flatMap, List.mem_filter, List.mem_map, Prod.exists,
    List.mem_zipIdx_iff_getElem?, decide_eq_true_eq, Prod.mk.injEq]
  constructor
  · rintro ⟨t, _, ⟨hi, hname⟩, _, _, hj, ⟨rfl, rfl⟩, rfl⟩
    exact ⟨t, hi, hname, hj⟩
  · rintro ⟨t, hi, hname, hj⟩
    exact ⟨t, i, ⟨hi, hname⟩, d, j, hj, ⟨rfl, rfl⟩, rfl⟩

/-- Where no two types and members share a key, no member is a part of another one. -/
theorem earlierPart?_eq_none (hn : p.typeNames.Nodup) (hp : p.DistinctDeclarations) {t : TypeDecl}
    {d : FnDecl} {i j : Nat} (hi : p.types[i]? = some t) (hj : t.members[j]? = some d) :
    p.earlierPart? (i, j) ⟨t, d⟩ = none := by
  have ht : t ∈ p.types := List.mem_of_getElem? hi
  have hmembers : p.members.Nodup := (List.nodup_append.1 hp.keys).2.1.of_map
  have hdecls : t.members.Nodup := ((List.nodup_flatMap.1 hmembers).1 t ht).of_map
  -- The first part has the name of the member, so it is the member.
  have hsame {place : Place} {first : FnDecl}
      (h : p.firstPartial? t.name d.name = some (place, first)) :
      place = (i, j) := by
    obtain ⟨i', j'⟩ := place
    obtain ⟨u, hi', hname, hj'⟩ := mem_membersOf.1 (List.mem_of_find?_eq_some h)
    have hu : u ∈ p.types := List.mem_of_getElem? hi'
    obtain rfl : u = t := List.inj_on_of_nodup_map hn hu ht hname
    have hfirst : first.name = d.name := by
      have htest := List.find?_some h
      simp only [Bool.and_eq_true, decide_eq_true_eq] at htest
      exact htest.2
    have hmem : (⟨u, first⟩ : Member) ∈ p.members :=
      Program.mem_members_iff.2 ⟨ht, List.mem_of_getElem? hj'⟩
    have hmem' : (⟨u, d⟩ : Member) ∈ p.members :=
      Program.mem_members_iff.2 ⟨ht, List.mem_of_getElem? hj⟩
    have hkey : (⟨u, first⟩ : Member).key = (⟨u, d⟩ : Member).key := by
      rw [Member.key, Member.key, hfirst]
    obtain rfl : first = d := congrArg Member.decl (hp.member_eq hmem hmem' hkey)
    rw [(List.getElem?_inj (List.getElem?_eq_some_iff.1 hi').1 (hn.of_map _)).1 (hi'.trans hi.symm),
      (List.getElem?_inj (List.getElem?_eq_some_iff.1 hj').1 hdecls).1 (hj'.trans hj.symm)]
  unfold Program.earlierPart?
  split
  · split
    · next first part hfirst => exact if_pos (hsame hfirst)
    · rfl
  · rfl

/-- The step of a member adds what is wrong with it; its signature is looked at with the
capabilities that are filed then. -/
theorem errors_checkMember (s : State) {place : Place} {m : Member}
    (hfirst : p.earlierPart? place m = none) : (checkMember p runtime s place m).errors =
      s.errors ++ soleErrors p runtime (fillMember p s.caps m) m := by
  have hclauses : memberClauseErrors p runtime place m = (match m.decl.base with
      | some base =>
        m.decl.typeParams.filterMap (TypeParam.restatementError m.key) ++
          (if (p.member? base).isSome then []
            else [⟨.unknownBaseMember m.key base.display, m.decl.span⟩])
      | none => m.decl.typeParams.flatMap (TypeParam.clauseErrors runtime)) := by
    rw [memberClauseErrors, hfirst]
    rfl
  have hparts : memberPartErrors p place m = [] := by
    rw [memberPartErrors, hfirst]
  show (s.errors ++ memberClauseErrors p runtime place m) ++ (cycleErrors m.decl.typeParams ++
    memberPartErrors p place m ++ signatureErrors p runtime (fillMember p s.caps m) m) = _
  rw [hclauses, hparts, soleErrors, List.append_nil, List.append_assoc]

/-- From the step of a member on, nothing else is filed for its type parameters. -/
theorem agree_fillMember (hp : p.DistinctDeclarations) {c d : Capabilities} (hc : c.Inherits p)
    (hd : d.Inherits p) {m : Member} (hm : m ∈ p.members) (hcd : (fillMember p c m).Within d) :
    (fillMember p c m).Agree (fun k => k ∈ p.typeNames ∨ k = m.key) d := by
  have hfilled := hc.fillMember hp hm
  intro k hk
  rcases hk with hk | hk
  · exact (hfilled.types k hk).symm.trans (hd.types k hk)
  · cases hfiled : (fillMember p c m).get? k with
    | some v => exact (hcd k v hfiled).symm
    | none =>
      -- What is filed later under the member's key is filed for one of its type parameters.
      refine (Option.eq_none_iff_forall_ne_some.2 fun v hv => ?_).symm
      have hnone : ∀ n ∈ p.members, ∀ r ∈ n.decl.typeParams, k ≠ ⟨n.key, r.name⟩ := by
        rintro n hn r hr rfl
        obtain rfl := hp.member_eq hn hm hk
        have hsome := isSome_fillMember c hm hr
        rw [hfiled] at hsome
        exact absurd hsome (by decide)
      have hown : k.owner ∉ p.typeNames := hk ▸ hp.key_not_mem_typeNames hm
      rw [hd.others k hown hnone] at hv
      exact absurd hv (by simp)

/-- What is wrong with a member is what is wrong with it by the capabilities at the end. -/
theorem soleErrors_fillMember (hp : p.DistinctDeclarations) {c d : Capabilities} (hc : c.Inherits p)
    (hd : d.Inherits p) {m : Member} (hm : m ∈ p.members) (hcd : (fillMember p c m).Within d) :
    soleErrors p runtime (fillMember p c m) m = soleErrors p runtime d m := by
  have hown : m.innerScope.OwnedBy fun k => k ∈ p.typeNames ∨ k = m.key :=
    Member.ownedBy_innerScope (.inr rfl) (.inl (Surroundings.typeName_mem hm))
  rw [soleErrors, soleErrors, (agree_fillMember hp hc hd hm hcd).signatureErrors_eq hown
    (fun _ => .inl) runtime]

/-- In any order of types, the same is wrong with a member. -/
theorem soleErrors_eq (h : p.SameSymbols q) {c d : Capabilities} (hcd : d.Agree (fun _ => True) c)
    (runtime : Bool) (m : Member) : soleErrors q runtime d m = soleErrors p runtime c m := by
  rw [soleErrors, soleErrors, h.member, h.signatureErrors_eq, hcd.signatureErrors_eq
    (fun _ _ => trivial) (fun _ _ => trivial)]

/-! ### Types -/

/-- What is wrong with the clauses of a type that has no other parts. -/
def typeClauseErrors (runtime : Bool) (t : TypeDecl) : List TypeError :=
  (t.typeParams.foldl (checkTypeClause runtime t.name) ⟨.empty, [], []⟩).errors

/-- What is wrong with a type that has no other parts, and with its members. -/
def wholeErrors (p : Program) (runtime : Bool) (caps : Capabilities) (t : TypeDecl) :
    List TypeError :=
  typeClauseErrors runtime t ++
    (t.fields.flatMap (TypeEnv.fieldErrors ⟨p, caps, .push [] t.name t.typeParams, runtime⟩ t) ++
      t.members.flatMap fun d => soleErrors p runtime caps ⟨t, d⟩)

/-- The clauses of a type are looked at with no regard to other types. -/
theorem errors_checkTypeClauses {owner : String} (s : State)
    (hs : ∀ name, (owner, name) ∉ s.clauses) (qs : List TypeParam) :
    (qs.foldl (checkTypeClause runtime owner) s).errors =
      s.errors ++ (qs.foldl (checkTypeClause runtime owner) ⟨.empty, [], []⟩).errors := by
  -- The same clauses of the type were looked at in both passes.
  suffices hboth : ∀ (qs : List TypeParam) (t u : State),
      (∀ name, (owner, name) ∈ t.clauses ↔ (owner, name) ∈ u.clauses) →
      t.errors = s.errors ++ u.errors →
      (qs.foldl (checkTypeClause runtime owner) t).errors =
        s.errors ++ (qs.foldl (checkTypeClause runtime owner) u).errors from
    hboth qs s _ (fun name => by simp [hs name]) (List.append_nil _).symm
  intro qs
  induction qs with
  | nil => exact fun _ _ _ herrors => herrors
  | cons r rest ih =>
    intro t u hclauses herrors
    have hseen : t.clauses.contains (owner, r.name) = u.clauses.contains (owner, r.name) := by
      rw [Bool.eq_iff_iff, List.contains_iff_mem, List.contains_iff_mem, hclauses]
    rw [List.foldl_cons, List.foldl_cons]
    simp only [checkTypeClause, hseen]
    split
    · exact ih t u hclauses herrors
    · refine ih _ _ (fun name => ?_) ?_
      · simp only [List.mem_cons, hclauses]
      · simp only [State.report, herrors, List.append_assoc]

/-- The step of a part looks at clauses of its type only. -/
theorem clauses_checkPart {s : State} {i : Nat} {t : TypeDecl} {x : String × String}
    (hx : x ∈ (checkPart p runtime s i t).clauses) : x ∈ s.clauses ∨ x.1 = t.name := by
  have hmembers : (checkPart p runtime s i t).clauses = (checkFields p runtime s t).clauses := by
    rw [checkPart_eq]
    exact List.foldlRecOn _ _
      (motive := fun (u : State) => u.clauses = (checkFields p runtime s t).clauses) rfl
      fun _ hu _ _ => hu
  have hclauses : (checkFields p runtime s t).clauses =
      (t.typeParams.foldl (checkTypeClause runtime t.name) s).clauses := rfl
  rw [hmembers, hclauses] at hx
  refine List.foldlRecOn t.typeParams (checkTypeClause runtime t.name)
    (motive := fun u => x ∈ u.clauses → x ∈ s.clauses ∨ x.1 = t.name) .inl
    (fun u hu r _ hx => ?_) hx
  unfold checkTypeClause at hx
  split at hx
  · exact hu hx
  · rcases List.mem_cons.1 hx with rfl | hx
    · exact .inr rfl
    · exact hu hx

/-- A pass over some parts looks at clauses of their types only. -/
theorem clauses_foldl_checkPart {l : List (TypeDecl × Nat)} {s : State} {x : String × String}
    (hx : x ∈ (l.foldl (fun s y => checkPart p runtime s y.2 y.1) s).clauses) :
    x ∈ s.clauses ∨ ∃ y ∈ l, x.1 = y.1.name := by
  refine List.foldlRecOn l (fun s y => checkPart p runtime s y.2 y.1)
    (motive := fun u => x ∈ u.clauses → x ∈ s.clauses ∨ ∃ y ∈ l, x.1 = y.1.name) .inl
    (fun u hu y hy hx => ?_) hx
  rcases clauses_checkPart hx with hx | hname
  · exact hu hx
  · exact .inr ⟨y, hy, hname⟩

/-- Entering types looks at no clauses. -/
theorem clauses_entered (p : Program) : (entered p).clauses = [] :=
  List.foldlRecOn _ _ (motive := fun (u : State) => u.clauses = []) rfl fun _ hu _ _ => hu

/-- Where elements stand does not matter to what they yield. -/
theorem flatMap_zipIdx {α β : Type} (l : List α) (f : α → List β) :
    (l.zipIdx.flatMap fun x => f x.1) = l.flatMap f := by
  rw [← List.flatMap_map Prod.fst f, List.zipIdx_map_fst]

/-- The fields of a part are looked at after its clauses, with the capabilities of types. -/
theorem errors_checkFields {s : State} {d : Capabilities} (hs : s.caps.Inherits p)
    (hd : d.Inherits p) {t : TypeDecl} (ht : t ∈ p.types)
    (hclauses : ∀ name, (t.name, name) ∉ s.clauses) :
    (checkFields p runtime s t).errors = s.errors ++ (typeClauseErrors runtime t ++
      t.fields.flatMap (TypeEnv.fieldErrors ⟨p, d, .push [] t.name t.typeParams, runtime⟩ t)) := by
  have hagree : s.caps.Agree (· ∈ p.typeNames) d :=
    fun k hk => (hs.types k hk).symm.trans (hd.types k hk)
  have hscope : (GenericScope.push [] t.name t.typeParams).OwnedBy (· ∈ p.typeNames) :=
    GenericScope.OwnedBy.push (fun _ hf => absurd hf List.not_mem_nil) (List.mem_map_of_mem ht) _
  unfold checkFields
  rw [State.report, errors_checkTypeClauses s hclauses, caps_foldl_checkTypeClause,
    hagree.fieldErrors_eq hscope (fun _ => id), List.append_assoc]
  rfl

/-- The step of a type adds what is wrong with it and its members by the capabilities at the end. -/
theorem errors_checkPart (hn : p.typeNames.Nodup) (hp : p.DistinctDeclarations) {s u : State}
    (hs : s.caps.Inherits p) (hu : u.caps.Inherits p) {i : Nat} {t : TypeDecl}
    (hi : p.types[i]? = some t) (hclauses : ∀ name, (t.name, name) ∉ s.clauses)
    (hlater : (checkPart p runtime s i t).Before u) :
    (checkPart p runtime s i t).errors = s.errors ++ wholeErrors p runtime u.caps t := by
  have ht : t ∈ p.types := List.mem_of_getElem? hi
  have hfields : (checkFields p runtime s t).caps.Inherits p := by
    show (t.typeParams.foldl (checkTypeClause runtime t.name) s).caps.Inherits p
    rwa [caps_foldl_checkTypeClause]
  have hmem {x : FnDecl × Nat} (hx : x ∈ t.members.zipIdx) : (⟨t, x.1⟩ : Member) ∈ p.members :=
    Program.mem_members_iff.2 ⟨ht, List.fst_mem_of_mem_zipIdx hx⟩
  rw [checkPart_eq] at hlater ⊢
  rw [State.errors_foldl_before (e := fun x => soleErrors p runtime u.caps ⟨t, x.1⟩) hfields
      (fun _ x hx hv => hv.fillMember hp (hmem hx))
      (fun v x => before_checkMember p runtime v (i, x.2) ⟨t, x.1⟩) hlater,
    errors_checkFields hs hu ht hclauses, flatMap_zipIdx t.members fun d =>
      soleErrors p runtime u.caps ⟨t, d⟩, wholeErrors, List.append_assoc, List.append_assoc]
  intro before x later hsplit hbefore hrest
  have hx : x ∈ t.members.zipIdx := hsplit ▸ List.mem_append_right _ (List.mem_cons_self ..)
  rw [errors_checkMember _ (earlierPart?_eq_none hn hp hi (List.mem_zipIdx_iff_getElem?.1 hx)),
    soleErrors_fillMember hp hbefore hu (hmem hx) hrest.within]

/-- Entering a type without further parts finds circles among its type parameters only. -/
theorem errors_entered (hn : p.typeNames.Nodup) :
    (entered p).errors = p.types.flatMap fun t => cycleErrors t.typeParams := by
  have hp : p.Reordered p := ⟨.refl _, hn⟩
  rw [entered, firstParts_eq_self hn fun _ _ => List.not_mem_nil,
    State.errors_foldl (e := fun t => cycleErrors t.typeParams)]
  · rfl
  · intro before t later hsplit
    have ht : t ∈ p.types := by
      rw [hsplit]
      exact List.mem_append_right _ (List.mem_cons_self ..)
    show _ ++ (typePartErrors p t.name ++ _) = _
    rw [typePartErrors, hp.parts_of_mem ht]
    rfl

/-- The errors of the pass, type by type: first the circles among type parameters, then the rest. -/
theorem errors_finished (hn : p.typeNames.Nodup) (hp : p.DistinctDeclarations) (runtime : Bool) :
    (finished p runtime).errors = (p.types.flatMap fun t => cycleErrors t.typeParams) ++
      p.types.flatMap (wholeErrors p runtime (finished p runtime).caps) := by
  let step (s : State) (x : TypeDecl × Nat) : State := checkPart p runtime s x.2 x.1
  have herrors : (finished p runtime).errors = (entered p).errors ++
      p.types.zipIdx.flatMap fun x => wholeErrors p runtime (finished p runtime).caps x.1 := by
    refine State.errors_foldl_before (inherits_entered hp)
      (fun _ x hx hs => inherits_checkPart hp runtime hs x.2 (List.fst_mem_of_mem_zipIdx hx))
      (fun s x => before_checkPart p runtime s x.2 x.1) (.refl _) ?_
    intro before x later hsplit hbefore hlater
    have hx : x ∈ p.types.zipIdx := hsplit ▸ List.mem_append_right _ (List.mem_cons_self ..)
    -- The clauses that were looked at belong to other types.
    have hclauses : ∀ name, (x.1.name, name) ∉ (before.foldl step (entered p)).clauses := by
      intro name hmem
      have hnames : ((p.types.zipIdx.map Prod.fst).map TypeDecl.name).Nodup := by
        rw [List.zipIdx_map_fst]
        exact hn
      rw [hsplit, List.map_append, List.map_append, List.map_cons, List.map_cons] at hnames
      rcases clauses_foldl_checkPart hmem with hmem | ⟨y, hy, hname⟩
      · exact List.not_mem_nil (clauses_entered p ▸ hmem)
      · exact (List.nodup_append.1 hnames).2.2 _ (List.mem_map_of_mem (List.mem_map_of_mem hy)) _
          (List.mem_cons_self ..) hname.symm
    exact errors_checkPart hn hp hbefore (inherits_finished hp runtime)
      (List.mem_zipIdx_iff_getElem?.1 hx) hclauses hlater
  rw [herrors, errors_entered hn, flatMap_zipIdx p.types (wholeErrors p runtime _)]

/-- In any order of types, the same is wrong with a type. -/
theorem wholeErrors_eq (h : p.SameSymbols q) {c d : Capabilities} (hcd : d.Agree (fun _ => True) c)
    (runtime : Bool) : wholeErrors q runtime d = wholeErrors p runtime c := by
  funext t
  simp only [wholeErrors, h.fieldErrors_eq, soleErrors_eq h hcd,
    hcd.fieldErrors_eq (fun _ _ => trivial) (fun _ _ => trivial)]

end Declarations

/-! ## Errors of contracts -/

namespace Program

variable {p q : Program} {t : TypeDecl}

/-- The implementations in a type that disagree with an interface. -/
def typeImplementationErrors (p : Program) (t : TypeDecl) : List EscapeError :=
  ((p.requiredMembers t).foldl (p.checkImplementation t) {}).errors

/-- What implements a required member is declared by some part of the type. -/
theorem mem_members_of_implementing? {name : String} {required found : Member}
    (h : p.implementing? name required = some found) :
    found ∈ p.members ∧ found.owner.name = name := by
  have hfirst {test : FnDecl → Bool} (hfound : ((p.parts name).findSome? fun part =>
      (part.members.find? test).map fun m => (⟨part, m⟩ : Member)) = some found) :
      found ∈ p.members ∧ found.owner.name = name := by
    obtain ⟨part, hpart, hfound⟩ := List.exists_of_findSome?_eq_some hfound
    obtain ⟨d, hd, rfl⟩ := Option.map_eq_some_iff.1 hfound
    obtain ⟨hpart, hname⟩ := List.mem_filter.1 hpart
    exact ⟨mem_members_iff.2 ⟨hpart, List.mem_of_find?_eq_some hd⟩, by simpa using hname⟩
  rcases Option.or_eq_some_iff.1 h with h | ⟨-, h⟩
  · exact hfirst h
  · exact hfirst h

/-- What implements a required member is a member of the type, if the type has one part. -/
theorem mem_of_implementing? (hn : p.typeNames.Nodup) (ht : t ∈ p.types) {required found : Member}
    (h : p.implementing? t.name required = some found) : found ∈ p.members ∧ found.owner = t := by
  have hp : p.Reordered p := ⟨.refl _, hn⟩
  obtain ⟨hmem, hname⟩ := mem_members_of_implementing? h
  exact ⟨hmem, hp.type_eq (mem_members_iff.1 hmem).1 ht hname⟩

/-- What was compared in other types does not matter to a type. -/
theorem foldl_checkImplementation (hn : p.typeNames.Nodup) (ht : t ∈ p.types)
    {s : ImplementationState} (hs : ∀ m ∈ p.members, m.owner = t → ∀ k, (m.key, k) ∉ s.seen)
    (required : List Member) (u : ImplementationState) :
    required.foldl (p.checkImplementation t) ⟨u.seen ++ s.seen, s.errors ++ u.errors⟩ =
      ⟨(required.foldl (p.checkImplementation t) u).seen ++ s.seen,
        s.errors ++ (required.foldl (p.checkImplementation t) u).errors⟩ := by
  induction required generalizing u with
  | nil => rfl
  | cons r rest ih =>
    have hstep : p.checkImplementation t ⟨u.seen ++ s.seen, s.errors ++ u.errors⟩ r =
        ⟨(p.checkImplementation t u r).seen ++ s.seen,
          s.errors ++ (p.checkImplementation t u r).errors⟩ := by
      unfold checkImplementation
      cases hfound : p.implementing? t.name r with
      | none => rfl
      | some found =>
        obtain ⟨hmem, howner⟩ := mem_of_implementing? hn ht hfound
        have hseen : (u.seen ++ s.seen).contains (found.key, r.key) =
            u.seen.contains (found.key, r.key) := by
          rw [Bool.eq_iff_iff, List.contains_iff_mem, List.contains_iff_mem, List.mem_append,
            or_iff_left (hs found hmem howner r.key)]
        simp only [hseen]
        split
        · rfl
        · split
          · simp only [List.cons_append, List.append_assoc]
          · rfl
    rw [List.foldl_cons, List.foldl_cons, hstep, ih]

/-- Only members of the type are compared. -/
theorem owner_of_seen (hn : p.typeNames.Nodup) (ht : t ∈ p.types) {x : String × String}
    (hx : x ∈ ((p.requiredMembers t).foldl (p.checkImplementation t) {}).seen) :
    ∃ m ∈ p.members, m.owner = t ∧ m.key = x.1 := by
  refine List.foldlRecOn (p.requiredMembers t) (p.checkImplementation t)
    (motive := fun s => x ∈ s.seen → ∃ m ∈ p.members, m.owner = t ∧ m.key = x.1)
    (fun hx => absurd hx List.not_mem_nil) (fun s hs required _ hx => ?_) hx
  unfold checkImplementation at hx
  split at hx
  · exact hs hx
  · next found hfound =>
    split at hx
    · exact hs hx
    · rcases List.mem_cons.1 hx with rfl | hx
      · obtain ⟨hmem, howner⟩ := mem_of_implementing? hn ht hfound
        exact ⟨found, hmem, howner, rfl⟩
      · exact hs hx

/-- The errors of implementations, type by type. -/
theorem implementationErrors_eq (hn : p.typeNames.Nodup) (hp : p.DistinctDeclarations) :
    p.implementationErrors = p.types.flatMap p.typeImplementationErrors := by
  let step (s : ImplementationState) (t : TypeDecl) : ImplementationState :=
    (p.requiredMembers t).foldl (p.checkImplementation t) s
  -- What was compared so far are members of the types so far.
  suffices hall : ∀ ts : List TypeDecl, ts ⊆ p.types → ts.Nodup →
      (ts.foldl step {}).errors = ts.flatMap p.typeImplementationErrors ∧
        ∀ x ∈ (ts.foldl step {}).seen, ∃ m ∈ p.members, m.owner ∈ ts ∧ m.key = x.1 from
    (hall p.types (List.Subset.refl _) (hn.of_map _)).1
  intro ts hts hnd
  induction ts using List.reverseRecOn with
  | nil => exact ⟨rfl, fun _ hx => absurd hx List.not_mem_nil⟩
  | append_singleton ts t ih =>
    obtain ⟨hts, ht⟩ := List.append_subset.1 hts
    obtain ⟨hnd, -, hdisj⟩ := List.nodup_append.1 hnd
    have ht : t ∈ p.types := ht (List.mem_singleton_self t)
    obtain ⟨herrors, hseen⟩ := ih hts hnd
    have hother : ∀ m ∈ p.members, m.owner = t → ∀ k, (m.key, k) ∉ (ts.foldl step {}).seen := by
      rintro m hm rfl k hk
      obtain ⟨n, hn', howner, hkey⟩ := hseen _ hk
      obtain rfl := hp.member_eq hn' hm hkey
      exact hdisj _ howner _ (List.mem_singleton_self _) rfl
    have hstep := foldl_checkImplementation hn ht hother (p.requiredMembers t) {}
    rw [List.append_nil] at hstep
    have hlast : (ts ++ [t]).foldl step {} = _ :=
      (List.foldl_append ..).trans hstep
    rw [hlast]
    refine ⟨by simp [herrors, typeImplementationErrors], fun x hx => ?_⟩
    rcases List.mem_append.1 hx with hx | hx
    · obtain ⟨m, hm, howner, hkey⟩ := owner_of_seen hn ht hx
      exact ⟨m, hm, List.mem_append_right _ (List.mem_singleton.2 howner), hkey⟩
    · obtain ⟨m, hm, howner, hkey⟩ := hseen x hx
      exact ⟨m, hm, List.mem_append_left _ howner, hkey⟩

/-! ## Whole programs -/

namespace Reordered

/-- **The same is wrong with declarations**, in some other order. -/
theorem declarationErrors_perm (h : p.Reordered q) (hp : p.DistinctDeclarations) (runtime : Bool) :
    (q.checkDeclarations runtime .empty).2.Perm (p.checkDeclarations runtime .empty).2 := by
  have hwhole := Declarations.wholeErrors_eq h.sameSymbols (h.get?_eq hp runtime) runtime
  show (Declarations.finished q runtime).errors.Perm (Declarations.finished p runtime).errors
  rw [Declarations.errors_finished h.names hp,
    Declarations.errors_finished h.symm.names (h.distinctDeclarations hp)]
  refine List.Perm.append (h.perm.symm.flatMap_right _) ?_
  exact hwhole ▸ h.perm.symm.flatMap_right _

/-- **The same is wrong with contracts**, in some other order. -/
theorem contractErrors_perm (h : p.Reordered q) (hp : p.DistinctDeclarations) :
    q.contractErrors.Perm p.contractErrors := by
  have htypes : q.typeImplementationErrors = p.typeImplementationErrors := by
    funext t
    have hcheck : q.checkImplementation t = p.checkImplementation t := by
      funext s required
      simp only [checkImplementation, h.implementing?_eq]
    rw [typeImplementationErrors, typeImplementationErrors, hcheck, h.requiredMembers_eq]
  rw [contractErrors, contractErrors, implementationErrors_eq h.names hp,
    implementationErrors_eq h.symm.names (h.distinctDeclarations hp), htypes]
  exact (h.members_perm.symm.flatMap_right _).append (h.perm.symm.flatMap_right _)

end Reordered

end Program

end StackEscape
