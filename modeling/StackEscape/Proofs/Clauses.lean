import StackEscape.Proofs.RuntimeSupport
import StackEscape.Proofs.ReorderedDeclarations

/-!
# Clauses that are looked at

A clause that has the marker must have it last, and not beside a reference type constraint. The
check of declarations looks at one clause for each type and name of a type parameter, the first that
has constraints, and at the clauses of a member that has no base, unless an earlier partial member
of its name has been met. What is wrong with these is reported, and nothing else is. Clauses that
restate others are passed over, and those that say something else under the same name are passed
over with them.

## Main definitions

* `StackEscape.ClauseFault` — what can be wrong with the marker of a clause.
* `StackEscape.Declarations.State.Tracks` — a state of the pass has looked at some clauses.
* `StackEscape.Program.LooksAt` — the clauses that the pass looks at.
* `StackEscape.Program.RestatesClauses` — what is wrong with a clause that is passed over is wrong
  with the one that is looked at.

## Main results

* `StackEscape.ClauseFault.mem_clauseErrors_iff` — what is reported of a clause.
* `StackEscape.Declarations.State.Tracks.checkPart`, `Declarations.tracks_parts` — a step of the
  pass, and the pass.
* `StackEscape.Program.clauses_reported` — which faults are reported.
* `StackEscape.Folios.clause_unreported` — a part and an overload whose faults are not.
-/

set_option autoImplicit false

namespace StackEscape

/-! ## Faults of a clause -/

namespace TypeParam

variable {q : TypeParam} {i : Nat} {span : Span}

/-- The marker that counts is the first one. -/
theorem exists_of_marker?_eq_some (h : q.marker? = some (i, span)) :
    ∃ before c after, q.constraints = before ++ c :: after ∧
      (∀ b ∈ before, b.kind ≠ .allowsRefStruct) ∧ c.kind = .allowsRefStruct ∧
      before.length = i := by
  obtain ⟨⟨c, j⟩, hfind, hpair⟩ := Option.map_eq_some_iff.1 h
  obtain ⟨rfl, -⟩ := Prod.mk.inj hpair
  obtain ⟨hc, as, bs, hsplit, has⟩ := List.find?_eq_some_iff_append.1 hfind
  obtain ⟨before, rest, hconstraints, rfl, hrest⟩ := List.zipIdx_eq_append_iff.1 hsplit
  obtain ⟨d, after, rfl, hd, -⟩ := List.zipIdx_eq_cons_iff.1 hrest.symm
  obtain ⟨rfl, rfl⟩ := Prod.mk.inj hd
  refine ⟨before, c, after, hconstraints, fun b hb => ?_, of_decide_eq_true hc, by simp⟩
  obtain ⟨k, hk⟩ := List.mem_iff_getElem?.1 hb
  have hmem : (b, k) ∈ before.zipIdx := List.mem_zipIdx_iff_getElem?.2 hk
  simpa using has (b, k) hmem

/-- A clause that has the marker has a first one. -/
theorem exists_marker? (h : q.hasAllowsMarker = true) : ∃ i span, q.marker? = some (i, span) := by
  obtain ⟨c, hc, hkind⟩ := List.any_eq_true.1 h
  obtain ⟨i, hi⟩ := List.mem_iff_getElem?.1 hc
  cases hmarker : q.marker? with
  | some m => exact ⟨m.1, m.2, rfl⟩
  | none =>
    have hnone := List.find?_eq_none.1 (Option.map_eq_none_iff.1 hmarker) (c, i)
      (List.mem_zipIdx_iff_getElem?.2 hi)
    exact absurd hkind hnone

end TypeParam

/-- What can be wrong with the marker of a clause. -/
inductive ClauseFault where
  /-- Another constraint follows it. -/
  | notLast
  /-- It stands beside a reference type constraint. -/
  | besideReferenceType
  deriving DecidableEq, Repr

namespace ClauseFault

variable {fault : ClauseFault} {q : TypeParam} {name : String} {span : Span} {runtime : Bool}

/-- The report of the fault, for a type parameter. -/
def kind : ClauseFault → String → TypeErrorKind
  | notLast => .allowsMarkerNotLast
  | besideReferenceType => .allowsWithClassConstraint

/-- The clause of a type parameter has the fault. -/
def Of : ClauseFault → TypeParam → Prop
  | notLast, q => ∃ c ∈ q.constraints.dropLast, c.kind = .allowsRefStruct
  | besideReferenceType, q => q.hasAllowsMarker = true ∧ q.has .referenceType = true

/-- The fault of a clause is among the errors, at the marker of the clause. -/
def ReportedIn (fault : ClauseFault) (errors : List TypeError) (q : TypeParam) : Prop :=
  ∃ i span, q.marker? = some (i, span) ∧ ⟨fault.kind q.name, span⟩ ∈ errors

/-- A clause with a fault has the marker. -/
theorem Of.hasAllowsMarker (h : fault.Of q) : q.hasAllowsMarker = true := by
  cases fault with
  | notLast =>
    obtain ⟨c, hc, hkind⟩ := h
    exact List.any_eq_true.2 ⟨c, List.dropLast_subset _ hc, decide_eq_true hkind⟩
  | besideReferenceType => exact h.1

theorem Of.constraints_ne_nil (h : fault.Of q) : q.constraints ≠ [] := by
  obtain ⟨c, hc, -⟩ := List.any_eq_true.1 h.hasAllowsMarker
  exact List.ne_nil_of_mem hc

/-- The marker is not last if it stands before the last position. -/
theorem notLast_iff {i : Nat} (h : q.marker? = some (i, span)) :
    notLast.Of q ↔ i + 1 ≠ q.constraints.length := by
  obtain ⟨before, c, after, hsplit, hbefore, hc, rfl⟩ := TypeParam.exists_of_marker?_eq_some h
  show (∃ b ∈ q.constraints.dropLast, b.kind = .allowsRefStruct) ↔ _
  rw [hsplit]
  cases after with
  | nil => simpa using hbefore
  | cons a after =>
    have hmem : c ∈ (before ++ c :: a :: after).dropLast := by
      simp [List.dropLast_append_of_ne_nil]
    exact iff_of_true ⟨c, hmem, hc⟩ (by simp)

/-- Of a clause its faults are reported at its marker, and no other ones. -/
theorem mem_clauseErrors_iff : ⟨fault.kind name, span⟩ ∈ q.clauseErrors runtime ↔
    fault.Of q ∧ name = q.name ∧ ∃ i, q.marker? = some (i, span) := by
  unfold TypeParam.clauseErrors
  cases hmarker : q.marker? with
  | none => simp
  | some m =>
    obtain ⟨i, marker⟩ := m
    obtain ⟨before, c, after, hsplit, -, hc, -⟩ := TypeParam.exists_of_marker?_eq_some hmarker
    have hallows : q.hasAllowsMarker = true :=
      List.any_eq_true.2 ⟨c, by simp [hsplit], decide_eq_true hc⟩
    dsimp only
    cases fault with
    | notLast =>
      rw [notLast_iff hmarker]
      cases runtime <;> simp [kind, @eq_comm _ span marker]
    | besideReferenceType =>
      have hof : besideReferenceType.Of q ↔ q.has .referenceType = true := and_iff_right hallows
      rw [hof]
      cases runtime <;> simp [kind, @eq_comm _ span marker]

end ClauseFault

/-! ## Errors that are no faults of clauses -/

/-- Does an error report a fault of a clause? -/
def TypeErrorKind.isClauseFault : TypeErrorKind → Bool
  | allowsMarkerNotLast _ | allowsWithClassConstraint _ => true
  | _ => false

@[simp] theorem ClauseFault.isClauseFault_kind (fault : ClauseFault) (name : String) :
    (fault.kind name).isClauseFault = true := by
  cases fault <;> rfl

/-- None of the errors reports a fault of a clause. -/
def ClauseFree (errors : List TypeError) : Prop := ∀ e ∈ errors, e.kind.isClauseFault = false

section ClauseFree

variable {as bs : List TypeError}

theorem ClauseFree.nil : ClauseFree [] := fun _ he => absurd he List.not_mem_nil

theorem ClauseFree.append (ha : ClauseFree as) (hb : ClauseFree bs) : ClauseFree (as ++ bs) :=
  List.forall_mem_append.2 ⟨ha, hb⟩

theorem ClauseFree.flatMap {β : Type} {l : List β} {f : β → List TypeError}
    (h : ∀ b ∈ l, ClauseFree (f b)) : ClauseFree (l.flatMap f) := by
  intro e he
  obtain ⟨b, hb, he⟩ := List.mem_flatMap.1 he
  exact h b hb e he

theorem ClauseFree.ite {condition : Prop} [Decidable condition] {e : TypeError}
    (h : e.kind.isClauseFault = false) : ClauseFree (if condition then [e] else []) := by
  split
  · exact fun _ he => List.mem_singleton.1 he ▸ h
  · exact .nil

theorem ClauseFree.not_mem (h : ClauseFree as) (fault : ClauseFault) (name : String) (span : Span) :
    ⟨fault.kind name, span⟩ ∉ as :=
  fun hmem => absurd (h _ hmem) (by simp)

theorem clauseFree_cycleErrors (params : List TypeParam) : ClauseFree (cycleErrors params) := by
  intro e he
  obtain ⟨edge, -, hedge⟩ := List.mem_filterMap.1 he
  unfold cycleError at hedge
  split at hedge
  · exact Option.some.inj hedge ▸ rfl
  · simp at hedge

theorem clauseFree_partialErrors (decl : String) (first other : List TypeParam) :
    ClauseFree (partialErrors decl first other) := by
  intro e he
  obtain ⟨x, -, hx⟩ := List.mem_filterMap.1 he
  dsimp only at hx
  split at hx
  · exact Option.some.inj hx ▸ rfl
  · simp at hx

end ClauseFree

namespace TypeEnv

theorem clauseFree_argErrors (env : TypeEnv) (generic owner : String) (params : List TypeParam)
    (args : List TypeRef) (span : Span) :
    ClauseFree (env.argErrors generic owner params args span) := by
  intro e he
  obtain ⟨x, -, hx⟩ := List.mem_filterMap.1 he
  obtain ⟨kind, hkind, rfl⟩ := Option.map_eq_some_iff.1 hx
  unfold argError at hkind
  split at hkind
  · simp at hkind
  · split at hkind
    · exact Option.some.inj hkind ▸ rfl
    · split at hkind
      · exact Option.some.inj hkind ▸ rfl
      · simp at hkind

mutual

/-- What is wrong with a type is no fault of a clause, at any depth. -/
theorem clauseFree_typeErrors (env : TypeEnv) (span : Span) : (ty : TypeRef) →
    ClauseFree (env.typeErrors span ty)
  | .void | .primitive _ | .object | .dynamic | .param _ => by
    simp only [typeErrors]
    exact .nil
  | .array elem => by
    simp only [typeErrors]
    exact .append (.ite rfl) (clauseFree_typeErrors env span elem)
  | .named name args => by
    simp only [typeErrors]
    refine .append ?_ (clauseFree_allTypeErrors env span args)
    split
    · exact clauseFree_argErrors env _ _ _ _ _
    · exact .nil

theorem clauseFree_allTypeErrors (env : TypeEnv) (span : Span) : (tys : List TypeRef) →
    ClauseFree (env.allTypeErrors span tys)
  | [] => by
    simp only [allTypeErrors]
    exact .nil
  | ty :: tys => by
    simp only [allTypeErrors]
    exact .append (clauseFree_typeErrors env span ty) (clauseFree_allTypeErrors env span tys)

end

theorem isClauseFault_of_storageError {owner : TypeDecl} {field : FieldDecl} {kind : TypeErrorKind}
    (h : storageError owner field = some kind) : kind.isClauseFault = false := by
  unfold storageError at h
  split at h
  · exact Option.some.inj h ▸ rfl
  · split at h
    · exact Option.some.inj h ▸ rfl
    · simp at h

theorem clauseFree_fieldErrors (env : TypeEnv) (owner : TypeDecl) (field : FieldDecl) :
    ClauseFree (env.fieldErrors owner field) := by
  refine .append (.append (.ite rfl) ?_) (env.clauseFree_typeErrors field.span field.ty)
  split
  · intro e he
    obtain ⟨kind, hkind, rfl⟩ := Option.map_eq_some_iff.1 (Option.mem_toList.1 he)
    exact isClauseFault_of_storageError hkind
  · exact .nil

end TypeEnv

namespace Declarations

variable {p : Program} {runtime : Bool}

/-! ## The clauses of the pass -/

/-- The clauses of a member that are looked at. -/
def memberClauses (p : Program) (place : Place) (m : Member) : List TypeParam :=
  if m.decl.base = none ∧ p.earlierPart? place m = none then m.decl.typeParams else []

/-- The clauses of the members of a part that are looked at. -/
def partClauses (p : Program) (i : Nat) (t : TypeDecl) : List TypeParam :=
  t.members.zipIdx.flatMap fun x => memberClauses p (i, x.2) ⟨t, x.1⟩

/-- Faults are reported of the clauses that are looked at. -/
theorem mem_memberClauseErrors_iff {place : Place} {m : Member} {fault : ClauseFault}
    {name : String} {span : Span} : ⟨fault.kind name, span⟩ ∈ memberClauseErrors p runtime place m ↔
      ∃ q ∈ memberClauses p place m, ⟨fault.kind name, span⟩ ∈ q.clauseErrors runtime := by
  cases hbase : m.decl.base with
  | some base =>
    have hfree : ClauseFree (memberClauseErrors p runtime place m) := by
      simp only [memberClauseErrors, hbase]
      refine .append (fun e he => ?_) ?_
      · obtain ⟨q, -, hq⟩ := List.mem_filterMap.1 he
        obtain ⟨c, -, rfl⟩ := Option.map_eq_some_iff.1 hq
        rfl
      · split
        · exact .nil
        · exact fun e he => List.mem_singleton.1 he ▸ rfl
    simp [hfree.not_mem, memberClauses, hbase]
  | none =>
    simp only [memberClauseErrors, memberClauses, hbase, true_and]
    cases p.earlierPart? place m <;> simp

/-- The clauses of the type parameters of a type part, under its name. -/
def typeClauses (t : TypeDecl) : List (String × TypeParam) := t.typeParams.map fun q => (t.name, q)

/-- The first clause with constraints that there is for a type and a name. -/
def leading? (clauses : List (String × TypeParam)) (key : String × String) : Option TypeParam :=
  (clauses.find? fun c => !c.2.constraints.isEmpty && decide ((c.1, c.2.name) = key)).map Prod.snd

theorem leading?_concat (clauses : List (String × TypeParam)) (owner : String) (q : TypeParam)
    (key : String × String) : leading? (clauses ++ [(owner, q)]) key = (leading? clauses key).or
      (if q.constraints.isEmpty = false ∧ (owner, q.name) = key then some q else none) := by
  rw [leading?, leading?, List.find?_append, Option.map_or, List.find?_singleton]
  split <;> split <;> simp_all

theorem leading?_eq_some {clauses : List (String × TypeParam)} {key : String × String}
    {q : TypeParam} (h : leading? clauses key = some q) :
    (key.1, q) ∈ clauses ∧ q.constraints ≠ [] ∧ q.name = key.2 := by
  obtain ⟨c, hfind, rfl⟩ := Option.map_eq_some_iff.1 h
  have htest := List.find?_some hfind
  simp only [Bool.and_eq_true, Bool.not_eq_true', decide_eq_true_eq] at htest
  obtain ⟨hconstraints, rfl⟩ := htest
  exact ⟨List.mem_of_find?_eq_some hfind, by simpa using hconstraints, rfl⟩

/-- A clause without constraints, or with another before it, is not the first. -/
theorem leading?_concat_of_skip {clauses : List (String × TypeParam)} {owner : String}
    {q : TypeParam}
    (h : q.constraints.isEmpty = false → (leading? clauses (owner, q.name)).isSome) :
    leading? (clauses ++ [(owner, q)]) = leading? clauses := by
  funext key
  rw [leading?_concat]
  split
  · next hkey =>
    obtain ⟨hconstraints, rfl⟩ := hkey
    obtain ⟨r, hr⟩ := Option.isSome_iff_exists.1 (h hconstraints)
    rw [hr, Option.some_or]
  · exact Option.or_none

/-- Any other clause is. -/
theorem leading?_concat_of_look {clauses : List (String × TypeParam)} {owner : String}
    {q : TypeParam}
    (hconstraints : q.constraints.isEmpty = false) (hnone : leading? clauses (owner, q.name) = none)
    (key : String × String) : leading? (clauses ++ [(owner, q)]) key =
      if key = (owner, q.name) then some q else leading? clauses key := by
  rw [leading?_concat]
  by_cases hkey : key = (owner, q.name)
  · simp [hkey, hconstraints, hnone]
  · rw [if_neg fun hboth => hkey hboth.2.symm, if_neg hkey, Option.or_none]

/-- Where there is a clause with constraints, one of them is the first. -/
theorem exists_leading? {clauses : List (String × TypeParam)} {owner : String} {q : TypeParam}
    (hq : (owner, q) ∈ clauses) (hconstraints : q.constraints ≠ []) :
    ∃ r, leading? clauses (owner, q.name) = some r := by
  cases h : leading? clauses (owner, q.name) with
  | some r => exact ⟨r, rfl⟩
  | none =>
    have hnone := List.find?_eq_none.1 (Option.map_eq_none_iff.1 h) _ hq
    simp [hconstraints] at hnone

/-- A state of the pass that has looked at some clauses of types and at some of members: it
remembers the former, and it has reported the faults of both and no others. -/
structure State.Tracks (runtime : Bool) (clauses : List (String × TypeParam)) (own : List TypeParam)
    (s : State) : Prop where
  /-- The clauses of types are remembered by type and name. -/
  remembered : ∀ key, key ∈ s.clauses ↔ (leading? clauses key).isSome
  /-- Faults of the first clause for each type and name are reported, and those of members. -/
  reported : ∀ (fault : ClauseFault) name span, ⟨fault.kind name, span⟩ ∈ s.errors ↔
    (∃ key q, leading? clauses key = some q ∧ ⟨fault.kind name, span⟩ ∈ q.clauseErrors runtime) ∨
      ∃ q ∈ own, ⟨fault.kind name, span⟩ ∈ q.clauseErrors runtime

namespace State.Tracks

variable {clauses : List (String × TypeParam)} {own : List TypeParam} {s : State}

/-- Other errors may be reported. -/
theorem report (h : s.Tracks runtime clauses own) {errors : List TypeError}
    (he : ClauseFree errors) :
    (s.report errors).Tracks runtime clauses own := by
  refine ⟨h.remembered, fun fault name span => ?_⟩
  rw [State.report, List.mem_append, ← h.reported]
  exact or_iff_left (he.not_mem fault name span)

/-- A clause of a type is looked at unless one before it has constraints. -/
theorem checkTypeClause (h : s.Tracks runtime clauses own) (owner : String) (q : TypeParam) :
    (checkTypeClause runtime owner s q).Tracks runtime (clauses ++ [(owner, q)]) own := by
  unfold Declarations.checkTypeClause
  split
  · next hskip =>
    have hsame : leading? (clauses ++ [(owner, q)]) = leading? clauses :=
      leading?_concat_of_skip fun hq => (h.remembered _).1 (by simpa [hq] using hskip)
    exact ⟨hsame ▸ h.remembered, hsame ▸ h.reported⟩
  · next hlook =>
    simp only [Bool.or_eq_true, not_or, Bool.not_eq_true, List.contains_iff_mem] at hlook
    obtain ⟨hconstraints, hmem⟩ := hlook
    have hnone : leading? clauses (owner, q.name) = none := by
      simpa using mt (h.remembered (owner, q.name)).2 (by simpa using hmem)
    have hleading := leading?_concat_of_look hconstraints hnone
    refine ⟨fun key => ?_, fun fault name span => ?_⟩
    · rw [hleading, List.mem_cons, h.remembered]
      split <;> simp_all
    · have hfirst : (∃ key r, leading? (clauses ++ [(owner, q)]) key = some r ∧
          ⟨fault.kind name, span⟩ ∈ r.clauseErrors runtime) ↔
            (∃ key r, leading? clauses key = some r ∧ ⟨fault.kind name,
              span⟩ ∈ r.clauseErrors runtime) ∨
              ⟨fault.kind name, span⟩ ∈ q.clauseErrors runtime := by
        constructor
        · rintro ⟨key, r, hr, he⟩
          rw [hleading] at hr
          split at hr
          · exact .inr (Option.some.inj hr ▸ he)
          · exact .inl ⟨key, r, hr, he⟩
        · rintro (⟨key, r, hr, he⟩ | he)
          · have hother : key ≠ (owner, q.name) := by
              rintro rfl
              simp [hnone] at hr
            exact ⟨key, r, by rw [hleading, if_neg hother, hr], he⟩
          · exact ⟨(owner, q.name), q, by rw [hleading, if_pos rfl], he⟩
      show _ ∈ s.errors ++ q.clauseErrors runtime ↔ _
      rw [List.mem_append, h.reported, hfirst, or_right_comm]

theorem checkTypeClauses (h : s.Tracks runtime clauses own) (owner : String) (qs : List TypeParam) :
    (qs.foldl (Declarations.checkTypeClause runtime owner) s).Tracks runtime
      (clauses ++ qs.map fun q => (owner, q)) own := by
  induction qs generalizing s clauses with
  | nil => simpa using h
  | cons q qs ih => simpa using ih (h.checkTypeClause owner q)

/-- The fields of a part come after its clauses. -/
theorem checkFields (h : s.Tracks runtime clauses own) (t : TypeDecl) :
    (checkFields p runtime s t).Tracks runtime (clauses ++ typeClauses t) own :=
  (h.checkTypeClauses t.name t.typeParams).report
    (.flatMap fun f _ => TypeEnv.clauseFree_fieldErrors _ t f)

/-- Of a member the clauses that are looked at are its own. -/
theorem checkMember (h : s.Tracks runtime clauses own) (place : Place) (m : Member) :
    (checkMember p runtime s place m).Tracks runtime clauses (own ++ memberClauses p place m) := by
  -- What is wrong with the clauses is reported first. Errors after that are no faults of clauses.
  have hclauses : (s.report (memberClauseErrors p runtime place m)).Tracks runtime clauses
      (own ++ memberClauses p place m) := by
    refine ⟨h.remembered, fun fault name span => ?_⟩
    rw [State.report, List.mem_append, h.reported, mem_memberClauseErrors_iff, or_assoc]
    simp only [List.mem_append, or_and_right, exists_or]
  have hrest : ClauseFree (cycleErrors m.decl.typeParams ++ memberPartErrors p place m ++
      signatureErrors p runtime (fillMember p s.caps m) m) := by
    refine .append (.append (clauseFree_cycleErrors _) ?_) (.append (.flatMap fun q _ => ?_) ?_)
    · unfold memberPartErrors
      split
      · exact clauseFree_partialErrors _ _ _
      · exact .nil
    · exact TypeEnv.clauseFree_typeErrors _ _ _
    · exact TypeEnv.clauseFree_typeErrors _ _ _
  have hfiled : State.Tracks runtime clauses (own ++ memberClauses p place m)
      { s.report (memberClauseErrors p runtime place m) with caps := fillMember p s.caps m } :=
    ⟨hclauses.remembered, hclauses.reported⟩
  exact hfiled.report hrest

/-- **Step.** The check of a part looks at its clauses and at those of its members. -/
theorem checkPart (h : s.Tracks runtime clauses own) (i : Nat) (t : TypeDecl) :
    (checkPart p runtime s i t).Tracks runtime (clauses ++ typeClauses t)
      (own ++ partClauses p i t) := by
  have hmembers (l : List (FnDecl × Nat)) (s : State) (own : List TypeParam)
      (h : s.Tracks runtime (clauses ++ typeClauses t) own) :
      (l.foldl (fun s x => Declarations.checkMember p runtime s (i, x.2) ⟨t, x.1⟩) s).Tracks runtime
        (clauses ++ typeClauses t)
        (own ++ l.flatMap fun x => memberClauses p (i, x.2) ⟨t, x.1⟩) := by
    induction l generalizing s own with
    | nil => simpa using h
    | cons x l ih => simpa using ih _ _ (h.checkMember (i, x.2) ⟨t, x.1⟩)
  rw [checkPart_eq]
  exact hmembers _ _ _ (h.checkFields t)

end State.Tracks

/-- **Run.** The pass looks at the clauses of all types and at those of all members. -/
theorem tracks_parts (runtime : Bool) (parts : List (TypeDecl × Nat)) {s : State}
    {clauses : List (String × TypeParam)} {own : List TypeParam}
      (h : s.Tracks runtime clauses own) :
    (parts.foldl (fun s x => checkPart p runtime s x.2 x.1) s).Tracks runtime
      (clauses ++ parts.flatMap fun x => typeClauses x.1)
      (own ++ parts.flatMap fun x => partClauses p x.2 x.1) := by
  induction parts generalizing s clauses own with
  | nil => simpa using h
  | cons x parts ih => simpa using ih (h.checkPart x.2 x.1)

/-- When types are entered, no clause is looked at. -/
theorem tracks_entered (p : Program) (runtime : Bool) (caps : Capabilities) :
    ((firstParts [] p.types).foldl (enterType p) ⟨caps, [], []⟩).Tracks runtime [] [] := by
  have hstart : (⟨caps, [], []⟩ : State).Tracks runtime [] [] := by
    constructor <;> simp [leading?]
  refine List.foldlRecOn _ _ hstart fun s hs t _ => ?_
  have hfree : ClauseFree (typePartErrors p t.name ++ cycleErrors t.typeParams) := by
    refine .append ?_ (clauseFree_cycleErrors _)
    unfold typePartErrors
    split
    · exact .nil
    · exact .flatMap fun _ _ => clauseFree_partialErrors _ _ _
  have hentered := hs.report hfree
  exact ⟨hentered.remembered, hentered.reported⟩

end Declarations

/-! ## Faults that are reported -/

/-- The member is the other one, or both are partial members of a name on a type. -/
def Member.IsPartOf (n m : Member) : Prop :=
  n = m ∨ n.owner.name = m.owner.name ∧ n.decl.name = m.decl.name ∧
    n.decl.modifiers.isPartial = true ∧ m.decl.modifiers.isPartial = true

namespace Program

open Declarations

variable {p : Program} {runtime : Bool} {caps : Capabilities} {fault : ClauseFault} {q : TypeParam}

/-- The clauses that the check of declarations looks at: for each type and name the first one that
has constraints, and those of members that have no base and no earlier partial member of their name.
-/
def LooksAt (p : Program) (q : TypeParam) : Prop :=
  (∃ owner, leading? (p.types.flatMap typeClauses) (owner, q.name) = some q) ∨
    q ∈ p.types.zipIdx.flatMap fun x => partClauses p x.2 x.1

theorem mem_typeClauses_iff {owner : String} : (owner, q) ∈ p.types.flatMap typeClauses ↔
    ∃ t ∈ p.parts owner, q ∈ t.typeParams := by
  simp only [List.mem_flatMap, typeClauses, List.mem_map, Prod.mk.injEq, parts, List.mem_filter,
    decide_eq_true_eq]
  grind

/-- The clauses of members that are looked at, by the positions of the members. -/
theorem looksAt_of_member {i j : Nat} {t : TypeDecl} {d : FnDecl} (hi : p.types[i]? = some t)
    (hj : t.members[j]? = some d) (hbase : d.base = none)
    (hfirst : p.earlierPart? (i, j) ⟨t, d⟩ = none) (hq : q ∈ d.typeParams) : p.LooksAt q := by
  refine .inr (List.mem_flatMap.2 ⟨(t, i), List.mem_zipIdx_iff_getElem?.2 hi, ?_⟩)
  refine List.mem_flatMap.2 ⟨(d, j), List.mem_zipIdx_iff_getElem?.2 hj, ?_⟩
  rwa [memberClauses, if_pos ⟨hbase, hfirst⟩]

/-- The pass looks at some clause of the name, on some part of the type, if one has constraints. -/
theorem exists_looksAt {t : TypeDecl} (ht : t ∈ p.types) (hq : q ∈ t.typeParams)
    (hconstraints : q.constraints ≠ []) : ∃ u ∈ p.parts t.name, ∃ r ∈ u.typeParams,
      r.name = q.name ∧ r.constraints ≠ [] ∧ p.LooksAt r := by
  have hmem : (t.name, q) ∈ p.types.flatMap typeClauses :=
    mem_typeClauses_iff.2 ⟨t, List.mem_filter.2 ⟨ht, decide_eq_true rfl⟩, hq⟩
  obtain ⟨r, hr⟩ := exists_leading? hmem hconstraints
  obtain ⟨hmem, hconstraints, hname⟩ := leading?_eq_some hr
  obtain ⟨u, hu, hru⟩ := mem_typeClauses_iff.1 hmem
  exact ⟨u, hu, r, hru, hname, hconstraints, .inl ⟨t.name, hname ▸ hr⟩⟩

/-- An earlier part of a member is the first one of its name. -/
theorem exists_of_earlierPart?_eq_some {place : Place} {m : Member} {first : FnDecl}
    (h : p.earlierPart? place m = some first) : ∃ i j t, p.types[i]? = some t ∧
      t.members[j]? = some first ∧ (⟨t, first⟩ : Member).IsPartOf m ∧
      p.earlierPart? (i, j) ⟨t, first⟩ = none := by
  unfold earlierPart? at h
  split at h
  · next hpartial =>
    split at h
    · next place' d hfind =>
      obtain ⟨i, j⟩ := place'
      split at h
      · simp at h
      · obtain rfl := Option.some.inj h
        obtain ⟨t, hi, hname, hj⟩ := mem_membersOf.1 (List.mem_of_find?_eq_some hfind)
        have htest := List.find?_some hfind
        simp only [Bool.and_eq_true, decide_eq_true_eq] at htest
        refine ⟨i, j, t, hi, hj, .inr ⟨hname, htest.2, htest.1, hpartial⟩, ?_⟩
        rw [earlierPart?, if_pos htest.1, hname, htest.2, hfind]
        exact if_pos rfl
    · simp at h
  · simp at h

/-- A fault is reported if a clause that is looked at has it. -/
theorem mem_checkDeclarations_iff {name : String} {span : Span} :
    ⟨fault.kind name, span⟩ ∈ (p.checkDeclarations runtime caps).2 ↔
      ∃ q, p.LooksAt q ∧ fault.Of q ∧ name = q.name ∧ ∃ i, q.marker? = some (i, span) := by
  have hrun := tracks_parts (p := p) runtime p.types.zipIdx (tracks_entered p runtime caps)
  rw [List.nil_append, List.nil_append, flatMap_zipIdx p.types typeClauses] at hrun
  refine (hrun.reported fault name span).trans ?_
  simp only [ClauseFault.mem_clauseErrors_iff]
  constructor
  · rintro (⟨⟨owner, _⟩, q, hq, hfault⟩ | ⟨q, hq, hfault⟩)
    · obtain ⟨-, -, rfl⟩ := leading?_eq_some hq
      exact ⟨q, .inl ⟨owner, hq⟩, hfault⟩
    · exact ⟨q, .inr hq, hfault⟩
  · rintro ⟨q, ⟨owner, hq⟩ | hq, hfault⟩
    · exact .inl ⟨_, q, hq, hfault⟩
    · exact .inr ⟨q, hq, hfault⟩

theorem LooksAt.reportedIn (h : p.LooksAt q) (hfault : fault.Of q) :
    fault.ReportedIn (p.checkDeclarations runtime caps).2 q := by
  obtain ⟨i, span, hmarker⟩ := TypeParam.exists_marker? hfault.hasAllowsMarker
  exact ⟨i, span, hmarker, mem_checkDeclarations_iff.2 ⟨q, h, hfault, rfl, i, hmarker⟩⟩

/-- What is wrong with a clause that is passed over is wrong with the one that is looked at in its
place: the parts of a type, as far as they state constraints for a type parameter, agree on its
faults, and an earlier partial member has no base and the faults of the later one. -/
structure RestatesClauses (p : Program) : Prop where
  /-- The parts of a type. -/
  types : ∀ t ∈ p.types, ∀ u ∈ p.parts t.name, ∀ q ∈ t.typeParams, ∀ r ∈ u.typeParams,
    r.name = q.name → r.constraints ≠ [] → ∀ fault : ClauseFault, fault.Of q → fault.Of r
  /-- The parts of a member. -/
  members : ∀ i j t d first, p.types[i]? = some t → t.members[j]? = some d → d.base = none →
    p.earlierPart? (i, j) ⟨t, d⟩ = some first → first.base = none ∧
      ∀ q ∈ d.typeParams, ∀ fault : ClauseFault, fault.Of q →
        ∃ r ∈ first.typeParams, r.name = q.name ∧ fault.Of r

/-- **Faults of clauses.** What is reported are the faults of the clauses that are looked at, each
at its marker, and no others. So if clauses that are passed over restate those that are looked at,
every fault of a clause is reported at some part: one on a part of a type at a part of that type,
and one on a member without a base at that member or at another partial member of its name.

**Proof sketch.** The pass remembers for which types and names it has seen constraints. After each
step, what it remembers are the keys of the clauses so far, and what it has reported of faults are
those of the first clause for each key and of the members' own clauses. -/
theorem clauses_reported (p : Program) (runtime : Bool) (caps : Capabilities) :
    let errors := (p.checkDeclarations runtime caps).2
    (∀ (fault : ClauseFault) name span, ⟨fault.kind name, span⟩ ∈ errors ↔
      ∃ q, p.LooksAt q ∧ fault.Of q ∧ name = q.name ∧ ∃ i, q.marker? = some (i, span)) ∧
    (p.RestatesClauses →
      (∀ t ∈ p.types, ∀ q ∈ t.typeParams, ∀ fault : ClauseFault, fault.Of q →
        ∃ u ∈ p.parts t.name, ∃ r ∈ u.typeParams, r.name = q.name ∧ fault.ReportedIn errors r) ∧
      ∀ m ∈ p.members, m.decl.base = none → ∀ q ∈ m.decl.typeParams, ∀ fault : ClauseFault,
        fault.Of q → ∃ n ∈ p.members, n.IsPartOf m ∧ ∃ r ∈ n.decl.typeParams, r.name = q.name ∧
          fault.ReportedIn errors r) := by
  refine ⟨fun _ _ _ => mem_checkDeclarations_iff, fun hrestates => ⟨?_, ?_⟩⟩
  · intro t ht q hq fault hfault
    obtain ⟨u, hu, r, hr, hname, hconstraints, hlooks⟩ :=
      exists_looksAt ht hq hfault.constraints_ne_nil
    exact ⟨u, hu, r, hr, hname,
      hlooks.reportedIn (hrestates.types t ht u hu q hq r hr hname hconstraints fault hfault)⟩
  · intro m hm hbase q hq fault hfault
    obtain ⟨ht, hd⟩ := mem_members_iff.1 hm
    obtain ⟨i, hi⟩ := List.mem_iff_getElem?.1 ht
    obtain ⟨j, hj⟩ := List.mem_iff_getElem?.1 hd
    cases hearlier : p.earlierPart? (i, j) m with
    | none =>
      exact ⟨m, hm, .inl rfl, q, hq, rfl,
        (looksAt_of_member hi hj hbase hearlier hq).reportedIn hfault⟩
    | some first =>
      obtain ⟨hbase', hsame⟩ := hrestates.members i j _ _ first hi hj hbase hearlier
      obtain ⟨r, hr, hname, hfault'⟩ := hsame q hq fault hfault
      obtain ⟨i', j', t, hi', hj', hpart, hnone⟩ := exists_of_earlierPart?_eq_some hearlier
      exact ⟨⟨t, first⟩, mem_members_iff.2 ⟨List.mem_of_getElem? hi', List.mem_of_getElem? hj'⟩,
        hpart, r, hr, hname, (looksAt_of_member hi' hj' hbase' hnone hr).reportedIn hfault'⟩

end Program

/-! ## Parts and overloads -/

namespace Folios

/-- A clause of `T`. -/
def clause (kinds : List ConstraintKind) : TypeParam :=
  ⟨"T", kinds.map fun kind => ⟨kind, .zero⟩, .zero⟩

/-- A part of a method that binds pages. -/
def bind (id : NodeId) (params : List Param) (clause : TypeParam) : FnDecl :=
  ⟨id, "Bind", .method, { (default : Modifiers) with isPartial := true }, [clause], params,
    .nothing, [], none, none, none, .zero⟩

/-- A part of a class. -/
def part (id : NodeId) (typeParams : List TypeParam) (members : List FnDecl) : TypeDecl :=
  ⟨id, "Folio", .classType, false, true, typeParams, [], [], [], members, .zero⟩

/-- How many pages to bind. -/
def count : Param := ⟨"count", .primitive "int", .none, false, [], .zero⟩

/-- The marker is not last in the clause of the second part of a type, nor in that of a second
overload, and nothing is reported: the clauses of the first part and of the first overload are in
order. -/
theorem clause_unreported :
    let last := clause [.allowsRefStruct]
    let notLast := clause [.allowsRefStruct, .constructible]
    ClauseFault.notLast.Of notLast ∧
    ((⟨[part 1 [last] [], part 2 [notLast] []]⟩ : Program).checkDeclarations true .empty).2 = [] ∧
    ((⟨[part 1 [] [bind 2 [] last, bind 3 [count] notLast]]⟩ : Program).checkDeclarations
      true .empty).2 = [] :=
  ⟨⟨⟨.allowsRefStruct, .zero⟩, List.mem_cons_self .., rfl⟩, by cbv, by cbv⟩

/-- The marker stands beside a reference type constraint and is not last. -/
def faulty : TypeParam := clause [.referenceType, .allowsRefStruct, .constructible]

/-- Two parts of a class that state the same clause, each with a part of a method that does so. -/
def restated : Program :=
  ⟨[part 1 [faulty] [bind 2 [] faulty], part 3 [faulty] [bind 4 [] faulty]]⟩

theorem typeParams_restated : ∀ t ∈ restated.types, t.typeParams = [faulty] ∧
    ∀ d ∈ t.members, d.typeParams = [faulty] ∧ d.base = none := by
  simp [restated, part, bind, FnDecl.base]

theorem of_faulty (fault : ClauseFault) : fault.Of faulty := by
  cases fault with
  | notLast => exact ⟨⟨.allowsRefStruct, .zero⟩, .tail _ (.head _), rfl⟩
  | besideReferenceType => exact ⟨rfl, rfl⟩

theorem restatesClauses_restated : restated.RestatesClauses where
  types t ht u hu q hq r hr hname hconstraints fault hfault := by
    rw [(typeParams_restated u (List.mem_filter.1 hu).1).1, List.mem_singleton] at hr
    exact hr ▸ of_faulty fault
  members i j t d first hi hj hbase hearlier := by
    obtain ⟨i', j', u, hu, hfirst, -⟩ := Program.exists_of_earlierPart?_eq_some hearlier
    obtain ⟨-, hmembers⟩ := typeParams_restated t (List.mem_of_getElem? hi)
    obtain ⟨-, hmembers'⟩ := typeParams_restated u (List.mem_of_getElem? hu)
    obtain ⟨hparams, -⟩ := hmembers d (List.mem_of_getElem? hj)
    obtain ⟨hparams', hbase'⟩ := hmembers' first (List.mem_of_getElem? hfirst)
    rw [hparams, hparams']
    exact ⟨hbase', fun q hq fault hfault => ⟨q, hq, rfl, hfault⟩⟩

/-- What the second parts restate is reported, of the class and of the method. -/
theorem clauses_reported_restated :
    let errors := (restated.checkDeclarations false .empty).2
    restated.RestatesClauses ∧ ∀ fault : ClauseFault, fault.Of faulty ∧
      (∃ u ∈ restated.parts "Folio", ∃ r ∈ u.typeParams, fault.ReportedIn errors r) ∧
      ∃ n ∈ restated.members, n.IsPartOf ⟨part 3 [faulty] [bind 4 [] faulty], bind 4 [] faulty⟩ ∧
        ∃ r ∈ n.decl.typeParams, fault.ReportedIn errors r := by
  intro errors
  obtain ⟨-, hreported⟩ := restated.clauses_reported false .empty
  obtain ⟨htypes, hmembers⟩ := hreported restatesClauses_restated
  refine ⟨restatesClauses_restated, fun fault => ⟨of_faulty fault, ?_, ?_⟩⟩
  · obtain ⟨u, hu, r, hr, -, hreported⟩ := htypes (part 3 [faulty] [bind 4 [] faulty])
      (.tail _ (.head _)) faulty (.head _) fault (of_faulty fault)
    exact ⟨u, hu, r, hr, hreported⟩
  · obtain ⟨n, hn, hpart, r, hr, -, hreported⟩ := hmembers
      ⟨part 3 [faulty] [bind 4 [] faulty],
        bind 4 [] faulty⟩ (.tail _ (.head _)) rfl faulty (.head _)
      fault (of_faulty fault)
    exact ⟨n, hn, hpart, r, hr, hreported⟩

end Folios

end StackEscape
