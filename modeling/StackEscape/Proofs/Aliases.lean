import StackEscape.Proofs.Binders

/-!
# Assignments through reference variables

A reference variable stands for the storage that it points to, so what is assigned to the variable
is stored there. The level that such an assignment is checked against is fixed when the variable is
declared, and stays fixed when the variable is pointed elsewhere.

## Main definitions

* `StackEscape.Assignment` — an assignment to a variable, of a value or of another reference.
* `StackEscape.Assignment.Reached` — the assignment is accepted some statements later.
* `StackEscape.Walk.Holds` — what a state says of a variable of a stack-only type.
* `StackEscape.Walk.fixedLevel` — the level that a declaration fixes for what is assigned.

## Main results

* `StackEscape.Walk.Holds.le_of_reached` — nothing narrower than its pair is assigned to a variable,
  and the variable is pointed to nothing narrower.
* `StackEscape.Walk.Holds.respects_iff` — which levels the accepted assignments respect.
* `StackEscape.Walk.assigned_through_alias` — they respect the storage that a reference variable
  points to exactly if it demands no more than the fixed level.
* `StackEscape.Relay.narrower_stored_through_alias` — two accepted bodies that store a slot where
  it does not live long enough.

## Implementation notes

If the initial value has a value level above the fixed level, which a `scoped` variable allows, or
if the variable is pointed to storage with one, then the assignments that are accepted need not
respect the level of the storage. Whether they do is said for every level, and so for that of every
storage that the variable is pointed to.
-/

set_option autoImplicit false

namespace StackEscape

/-! ## Accepted walks -/

namespace Walk

/-- A stack-only local variable is accepted only where none are forbidden. -/
theorem forbidsLocals_of_accepted {env : Surroundings} {decl : LocalDecl}
    {init : Option ScopePair} {s : WalkState}
    (h : (declareLocal env decl true true init).Accepted s)
    (hstack : (s.types env).stackOnly decl.ty = true) : s.forbidsLocals = false := by
  by_contra hforbids
  have hforbids : s.forbidsLocals = true := by simpa using hforbids
  have herrors : ((declareLocal env decl true true init).after s).errors =
      s.errors ++ [⟨.asyncOrIteratorLocal decl.name decl.ty.display, decl.span⟩] := by
    simp [declareLocal, stackOnly, rejectedInAsync, hstack, hforbids]
    rfl
  have hnone : s.errors ++ [_] = s.errors := herrors.symm.trans h
  simp at hnone

/-- An accepted assignment has no error. -/
theorem assignmentError_of_accepted {env : Surroundings} {target value : Expr} {byRef : Bool}
    {t v : ScopePair} {s : WalkState}
    (h : (checkAssignment env target value byRef t v).Accepted s) :
    assignmentError (s.types env) s.facts target value byRef t v = none := by
  cases he : assignmentError (s.types env) s.facts target value byRef t v with
  | none => rfl
  | some kind =>
    have herrors : ((checkAssignment env target value byRef t v).after s).errors =
        s.errors ++ [⟨kind, value.span⟩] := by
      simp only [checkAssignment, after_bind, answer_get, after_get, he]
      rfl
    have hnone : s.errors ++ [_] = s.errors := herrors.symm.trans h
    simp at hnone

/-- What an accepted assignment says of its sides. -/
theorem le_of_assignmentError {types : TypeEnv} {facts : Facts} {target value : Expr} {byRef : Bool}
    {t v : ScopePair} (h : assignmentError types facts target value byRef t v = none)
    (ht : t.isInvalid = false) (hv : v.isInvalid = false)
    (hstack : types.stackOnly target.ty = true) : t.value ≤ v.value := by
  simp only [assignmentError, ht, hv, hstack, Bool.or_false, Bool.false_eq_true, if_false,
    Bool.true_and] at h
  split at h
  · simp at h
  · split at h
    · simp at h
    · next hallowed => simpa using hallowed

end Walk

/-- A type that is stack-only stays so while more is filed. -/
theorem WalkState.Keeps.stackOnly {env : Surroundings} {s t : WalkState} (h : s.Keeps t)
    {ty : TypeRef} (hstack : (s.types env).stackOnly ty = true) :
    (t.types env).stackOnly ty = true := by
  cases ty with
  | param name =>
    simp only [types, TypeEnv.stackOnly, TypeEnv.capability, Capabilities.of,
      Capabilities.ofParam] at hstack ⊢
    rw [h.generics]
    cases hkey : s.generics.resolve name with
    | none => simpa [hkey] using hstack
    | some key =>
      rw [hkey, Option.bind_some] at hstack
      rw [Option.bind_some]
      cases hcap : s.tables.caps.get? key with
      | none => simp [hcap, Capability.unknown, Capability.isStackOnly] at hstack
      | some c =>
        rw [h.caps key c hcap]
        rwa [hcap] at hstack
  | _ => exact hstack

/-! ## Assignments to a variable -/

/-- An assignment to a variable. -/
structure Assignment where
  /-- The identifier of the statement. -/
  id : NodeId
  /-- The identifier of the variable's name on the left. -/
  targetId : NodeId
  /-- Where the name stands. -/
  targetSpan : Span
  /-- What is assigned. -/
  value : Expr
  /-- Is the variable pointed elsewhere? -/
  byRef : Bool
  /-- Where the statement is. -/
  span : Span

namespace Assignment

/-- The left side. -/
def target (a : Assignment) (decl : LocalDecl) : Expr :=
  ⟨a.targetId, .var decl.name, decl.ty, a.targetSpan⟩

/-- The statement. -/
def stmt (a : Assignment) (decl : LocalDecl) : Stmt :=
  ⟨a.id, .assign (a.target decl) a.value a.byRef, a.span⟩

end Assignment

namespace Walk

variable {env : Surroundings} {s t : WalkState} {decl : LocalDecl} {found : Lookup}

/-- Outside of expression trees a variable that is found in its own function has its pair. -/
theorem run_checkExpr_var (env : Surroundings) (htree : s.ctx.inExpressionTree = false)
    {name : String} (hfound : s.ctx.lookup name = some found) (hcrossed : found.crossed = none)
    (id : NodeId) (ty : TypeRef) (span : Span) :
    (checkExpr env ⟨id, .var name, ty, span⟩).answer s = found.info.pair ∧
      (checkExpr env ⟨id, .var name, ty, span⟩).after s =
        { s with facts := s.facts.record id found.info.pair } := by
  rw [checkExpr, checkForm]
  simp only [readVariable, answer_bind, after_bind, answer_get, after_get, htree, hfound, hcrossed,
    Bool.false_and, Bool.false_eq_true, if_false, Option.isSome_none]
  exact ⟨rfl, rfl⟩

/-- An assignment to a variable looks at both sides and compares them. -/
theorem checkStmt_assignment (env : Surroundings) (decl : LocalDecl) (a : Assignment) :
    checkStmt env (a.stmt decl) = (checkExpr env (a.target decl) >>= fun left =>
      checkExpr env a.value >>= fun right =>
        checkAssignment env (a.target decl) a.value a.byRef left right) := rfl

/-- What is recorded for the right side is what the walk over it yields. -/
theorem pair?_assignment (decl : LocalDecl) (a : Assignment) :
    ((checkStmt env (a.stmt decl)).after t).facts.pair? a.value.id =
      some ((checkExpr env a.value).answer ((checkExpr env (a.target decl)).after t)) := by
  have hcheck (left right : ScopePair) (u : WalkState) :
      ((checkAssignment env (a.target decl) a.value a.byRef left right).after u).facts =
        u.facts := by
    simp only [checkAssignment, after_bind, answer_get, after_get]
    cases assignmentError (u.types env) u.facts (a.target decl) a.value a.byRef left right <;> rfl
  rw [checkStmt_assignment, after_bind, after_bind, hcheck, pair?_checkExpr]

/-- Nothing is assigned to a variable that is narrower than its pair, and the variable is pointed
to nothing narrower. -/
theorem pair_le_of_accepted (htree : t.ctx.inExpressionTree = false)
    (hfound : t.ctx.lookup decl.name = some found) (hcrossed : found.crossed = none)
    (hvalid : found.info.pair.isInvalid = false)
    (hstack : (t.types env).stackOnly decl.ty = true) {a : Assignment}
    (haccepted : (checkStmt env (a.stmt decl)).Accepted t) {pair : ScopePair}
    (hpair : ((checkStmt env (a.stmt decl)).after t).facts.pair? a.value.id = some pair)
    (hv : pair.isInvalid = false) : found.info.pair.value ≤ pair.value := by
  have htarget : Declares [] (fun _ => True) (checkExpr env (a.target decl)) :=
    .checkExpr (a.target decl) (by simp [Assignment.target, Binders.ofExpr, Binders.ofKind])
  have hvalue : Declares (Binders.ofExpr a.value) (fun _ => True) (checkExpr env a.value) :=
    .checkExpr a.value (List.Subset.refl _)
  have hcheck (left right : ScopePair) : Declares (Binders.ofExpr a.value) (fun _ => True)
      (checkAssignment env (a.target decl) a.value a.byRef left right) :=
    .checkAssignment env (a.target decl) a.value a.byRef left right
  rw [checkStmt_assignment] at haccepted
  obtain ⟨-, hsides⟩ := haccepted.of_bind htarget fun left => hvalue.bind fun right _ =>
    hcheck left right
  obtain ⟨-, hcompared⟩ := hsides.of_bind hvalue fun right => hcheck _ right
  rw [pair?_assignment] at hpair
  obtain rfl := Option.some.inj hpair
  have hleft : (checkExpr env (a.target decl)).answer t = found.info.pair :=
    (run_checkExpr_var env htree hfound hcrossed a.targetId decl.ty a.targetSpan).1
  rw [hleft] at hcompared
  refine le_of_assignmentError (assignmentError_of_accepted hcompared) hvalid hv ?_
  exact ((htarget.after t).toKeeps.trans (hvalue.after _).toKeeps).stackOnly hstack

/-- Assigning a variable to itself is accepted, and what is assigned has the variable's pair. -/
theorem accepted_self (env : Surroundings) (htree : t.ctx.inExpressionTree = false)
    (hfound : t.ctx.lookup decl.name = some found) (hcrossed : found.crossed = none)
    (hvalid : found.info.pair.isInvalid = false) {a : Assignment} (hbyRef : a.byRef = false)
    (ha : a.value = a.target decl) :
    (checkStmt env (a.stmt decl)).Accepted t ∧
      ((checkStmt env (a.stmt decl)).after t).facts.pair? a.value.id = some found.info.pair := by
  let u : WalkState := { t with facts := t.facts.record a.targetId found.info.pair }
  obtain ⟨hleft, hafter⟩ : (checkExpr env (a.target decl)).answer t = found.info.pair ∧
      (checkExpr env (a.target decl)).after t = u :=
    run_checkExpr_var env htree hfound hcrossed a.targetId decl.ty a.targetSpan
  obtain ⟨hright, hlast⟩ : (checkExpr env (a.target decl)).answer u = found.info.pair ∧
      (checkExpr env (a.target decl)).after u =
        { u with facts := u.facts.record a.targetId found.info.pair } :=
    run_checkExpr_var env (s := u) htree hfound hcrossed a.targetId decl.ty a.targetSpan
  have hnone (types : TypeEnv) (facts : Facts) : assignmentError types facts (a.target decl)
      (a.target decl) false found.info.pair found.info.pair = none := by
    simp [assignmentError, hvalid, Level.allowed, Level.le_refl]
  refine ⟨?_, ?_⟩
  · rw [Accepted, checkStmt_assignment, after_bind, after_bind, ha, hbyRef, hleft, hafter, hright,
      hlast, checkAssignment, after_bind, answer_get, after_get, hnone]
    rfl
  · rw [pair?_assignment, ha, hafter, hright]

end Walk

/-- The assignment is accepted after some statements that leave the variable's name alone, and what
is assigned was not given up. -/
structure Assignment.Reached (env : Surroundings) (decl : LocalDecl) (t : WalkState)
    (between : List Stmt) (a : Assignment) (pair : ScopePair) : Prop where
  /-- The name is not declared anew. -/
  kept : decl.name ∉ Binders.ofStmts between
  /-- Nothing is reported on the way. -/
  accepted : (Walk.checkStmts env (between ++ [a.stmt decl])).Accepted t
  /-- The pair is the one that is recorded for what is assigned. -/
  recorded : ((Walk.checkStmts env (between ++ [a.stmt decl])).after t).facts.pair? a.value.id =
    some pair
  /-- It was not given up. -/
  valid : pair.isInvalid = false

namespace Walk

variable {env : Surroundings} {s t : WalkState} {decl : LocalDecl} {found : Lookup}

/-- What the state says of a variable of a stack-only type: it is one of the current function, and
was not given up. -/
structure Holds (env : Surroundings) (decl : LocalDecl) (found : Lookup) (t : WalkState) :
    Prop where
  /-- The place is no part of an expression tree. -/
  tree : t.ctx.inExpressionTree = false
  /-- The variable is found under its name. -/
  lookup : t.ctx.lookup decl.name = some found
  /-- It is one of the current function. -/
  crossed : found.crossed = none
  /-- It was not given up. -/
  valid : found.info.pair.isInvalid = false
  /-- Its type is stack-only. -/
  stackOnly : (t.types env).stackOnly decl.ty = true

/-- A variable stays what it is while its name is not declared anew. -/
theorem Holds.extends {ns : List String} (h : Holds env decl found s) (he : s.Extends ns t)
    (hname : decl.name ∉ ns) : Holds env decl found t :=
  ⟨he.inExpressionTree_eq.trans h.tree, (he.lookup_eq hname).trans h.lookup, h.crossed, h.valid,
    he.toKeeps.stackOnly h.stackOnly⟩

/-- After some statements, an assignment respects the variable's pair. -/
theorem Holds.le_of_reached (h : Holds env decl found t) {between : List Stmt} {a : Assignment}
    {pair : ScopePair} (ha : a.Reached env decl t between pair) :
    found.info.pair.value ≤ pair.value := by
  have hbetween : Declares (Binders.ofStmts between) (fun _ => True) (checkStmts env between) :=
    .checkStmts between (List.Subset.refl _)
  have hlast : Declares (Binders.ofStmts [a.stmt decl]) (fun _ => True)
      (checkStmts env [a.stmt decl]) := .checkStmts _ (List.Subset.refl _)
  have haccepted := ha.accepted
  rw [checkStmts_append] at haccepted
  obtain ⟨-, hassigned⟩ := haccepted.of_bind hbetween fun _ => hlast
  rw [Accepted, after_checkStmts_singleton] at hassigned
  have hrecorded := ha.recorded
  rw [after_checkStmts_append, after_checkStmts_singleton] at hrecorded
  have h' := h.extends (hbetween.after t) ha.kept
  exact pair_le_of_accepted h'.tree h'.lookup h'.crossed h'.valid h'.stackOnly hassigned hrecorded
    ha.valid

/-- The assignments that are accepted from a state on respect a level exactly if the variable's pair
does: the variable can be assigned to itself. -/
theorem Holds.respects_iff (h : Holds env decl found t) (required : Level) :
    (∀ between a pair, Assignment.byRef a = false → a.Reached env decl t between pair →
      required ≤ pair.value) ↔ required ≤ found.info.pair.value := by
  constructor
  · intro hall
    let self : Assignment :=
      ⟨0, 0, .zero, ⟨0, .var decl.name, decl.ty, .zero⟩, false, .zero⟩
    obtain ⟨haccepted, hrecorded⟩ := accepted_self env (a := self) h.tree h.lookup h.crossed
      h.valid rfl rfl
    refine hall [] self found.info.pair rfl ⟨by simp [Binders.ofStmts], ?_, ?_, h.valid⟩
    · rw [List.nil_append, Accepted, after_checkStmts_singleton]
      exact haccepted
    · rw [List.nil_append, after_checkStmts_singleton]
      exact hrecorded
  · intro hle between a pair _ ha
    exact Level.le_trans hle (h.le_of_reached ha)

/-! ## Reference variables -/

/-- The level that a declaration fixes for everything that is assigned to its variable. -/
def fixedLevel (decl : LocalDecl) (init : ScopePair) : Level :=
  if decl.isScoped then .currentMethod else init.value

/-- A stack-only variable whose declaration is accepted holds the fixed level. -/
theorem exists_holds_of_accepted {e : Expr} (hinit : decl.init = some e)
    (hs : s.ctx.scopes ≠ []) (htree : s.ctx.inExpressionTree = false)
    (hstack : (s.types env).stackOnly decl.ty = true) {id : NodeId} {span : Span}
    (haccepted : (checkStmt env ⟨id, .declare decl, span⟩).Accepted s) {init : ScopePair}
    (hrecorded : ((checkStmt env ⟨id, .declare decl, span⟩).after s).facts.pair? e.id = some init)
    (hvalid : init.isInvalid = false) :
    ∃ found, Holds env decl found ((checkStmt env ⟨id, .declare decl, span⟩).after s) ∧
      found.info.pair.value = fixedLevel decl init := by
  have hstmt : checkStmt env ⟨id, .declare decl, span⟩ = checkLocal env true decl := by
    rw [checkStmt]
  have hparts : checkLocal env true decl = (checkShape env decl.ty decl.span >>= fun wellFormed =>
      checkInit env decl.init >>= fun pair => declareLocal env decl wellFormed true pair) := by
    rcases decl with ⟨name, ty, refKind, isScoped, init, span⟩
    rw [checkLocal]
  have hvalue : Declares (Binders.ofLocal decl) (fun _ => True) (checkInit env decl.init) := by
    rcases decl with ⟨name, ty, refKind, isScoped, init, span⟩
    exact .checkInit init (by rw [Binders.ofLocal]; exact List.subset_cons_self _ _)
  have hdeclare (wellFormed : Bool) (pair : Option ScopePair) : Declares (Binders.ofLocal decl)
      (fun _ => True) (declareLocal env decl wellFormed true pair) := by
    rcases decl with ⟨name, ty, refKind, isScoped, init, span⟩
    exact .declareLocal env (by rw [Binders.ofLocal]; exact List.mem_cons_self ..) _ _ _
  rw [hstmt] at haccepted hrecorded ⊢
  -- The type is well formed, and stack-only variables are allowed.
  rw [hparts] at haccepted
  have hcheck : Declares (Binders.ofLocal decl) (fun _ => True)
      (checkShape env decl.ty decl.span) := .checkShape env _ _
  obtain ⟨hshape, hrest⟩ := haccepted.of_bind hcheck fun wellFormed =>
    hvalue.bind fun pair _ => hdeclare wellFormed pair
  have hshape := typeErrors_of_accepted hshape
  obtain ⟨hwell, hsame⟩ := run_checkShape hshape
  rw [hwell, hsame] at hrest
  obtain ⟨-, hlast⟩ := hrest.of_bind hvalue fun pair => hdeclare true pair
  have hextends : s.Extends (Binders.ofLocal decl) ((checkInit env decl.init).after s) :=
    hvalue.after s
  have hstack' := hextends.toKeeps.stackOnly hstack
  have hfree := forbidsLocals_of_accepted hlast hstack'
  rw [hextends.forbidsLocals_eq] at hfree
  have hafter := after_checkLocal decl hshape fun _ => hfree
  -- The initial pair is the recorded one.
  have hpair : (checkInit env decl.init).answer s = some init := by
    rw [hafter, hinit] at hrecorded
    have hlookup : ((checkExpr env e).after s).facts.pair? e.id = some init := hrecorded
    rw [pair?_checkExpr] at hlookup
    rw [hinit]
    exact hlookup
  rw [hafter, hstack', hpair]
  have hscopes := hextends.scopes_ne_nil hs
  have hlevel : (localPair decl true (some init)).value = fixedLevel decl init := by
    simp [localPair, fixedLevel, hvalid]
  refine ⟨⟨declaredLocal decl true (some init), none⟩, ⟨?_, ?_, rfl, ?_, hstack'⟩, hlevel⟩
  · have htree' := hextends.inExpressionTree_eq.trans htree
    exact (Context.inExpressionTree_declareAll _ [declaredLocal decl true (some init)]).trans htree'
  · exact Covers.lookup_declare hscopes (declaredLocal decl true (some init))
  · simp [declaredLocal, localPair, hvalid]

/-- **Assignments through a reference variable.** The level that the declaration fixes is what
counts: the variable is pointed to nothing narrower, and for every storage that it is pointed to,
the values assigned from then on live as long as the storage demands exactly if the storage demands
no more than the fixed level. So the storage of the initial value is safe unless the variable is
`scoped`, and other storage only if it demands exactly the fixed level. -/
theorem assigned_through_alias {e : Expr} (hinit : decl.init = some e)
    (hs : s.ctx.scopes ≠ []) (htree : s.ctx.inExpressionTree = false)
    (hstack : (s.types env).stackOnly decl.ty = true) {id : NodeId} {span : Span}
    (haccepted : (checkStmt env ⟨id, .declare decl, span⟩).Accepted s) {init : ScopePair}
    (hrecorded : ((checkStmt env ⟨id, .declare decl, span⟩).after s).facts.pair? e.id = some init)
    (hvalid : init.isInvalid = false) :
    let t := (checkStmt env ⟨id, .declare decl, span⟩).after s
    ((∀ between a pair, Assignment.byRef a = false → a.Reached env decl t between pair →
        init.value ≤ pair.value) ↔ decl.isScoped = false ∨ init.value = .currentMethod) ∧
      ∀ before r pointed, Assignment.byRef r = true → r.Reached env decl t before pointed →
        decl.name ∉ Binders.ofExpr r.value →
        let u := (checkStmts env (before ++ [r.stmt decl])).after t
        fixedLevel decl init ≤ pointed.value ∧
          ((∀ between a pair, Assignment.byRef a = false → a.Reached env decl u between pair →
              pointed.value ≤ pair.value) ↔ pointed.value = fixedLevel decl init) := by
  intro t
  obtain ⟨found, hholds, hlevel⟩ := exists_holds_of_accepted hinit hs htree hstack haccepted
    hrecorded hvalid
  refine ⟨?_, fun before r pointed _ hr hname => ?_⟩
  · rw [hholds.respects_iff, hlevel, fixedLevel]
    cases decl.isScoped with
    | false => simp [Level.le_refl]
    | true =>
      have hmin : init.value ≤ .currentMethod ↔ init.value = .currentMethod :=
        ⟨fun h => Level.le_antisymm h (Level.currentMethod_le _), fun h => h ▸ Level.le_refl _⟩
      simpa using hmin
  · have hle : fixedLevel decl init ≤ pointed.value := hlevel ▸ hholds.le_of_reached hr
    have hkept : decl.name ∉ Binders.ofStmts (before ++ [r.stmt decl]) := by
      rw [Binders.ofStmts_append, List.mem_append]
      exact fun h => h.elim hr.kept fun h => hname (by
        simpa [Assignment.stmt, Assignment.target, Binders.ofStmts, Binders.ofStmt, Binders.ofExpr,
          Binders.ofKind] using h)
    refine ⟨hle, ?_⟩
    have hwalk : Declares (Binders.ofStmts (before ++ [r.stmt decl])) (fun _ => True)
        (checkStmts env (before ++ [r.stmt decl])) := .checkStmts _ (List.Subset.refl _)
    have hlater := hholds.extends (hwalk.after t) hkept
    rw [hlater.respects_iff, hlevel]
    exact ⟨fun h => Level.le_antisymm h hle, fun h => h ▸ Level.le_refl _⟩

end Walk

/-! ## Slots that are stored where they do not live long enough -/

namespace Relay

open Slots

/-- A slot that does not leave the body. -/
def buffer (id : NodeId) : Stmt := ⟨id, .declare ⟨"buf", slotTy, .none, true, none, .zero⟩, .zero⟩

/-- The declaration of a reference to a slot. -/
def pointer (isScoped : Bool) (init : Expr) : LocalDecl :=
  ⟨"r", slotTy, .ref, isScoped, some init, .zero⟩

/-- Points a `scoped` reference to the parameter, and stores the slot through it. -/
def store : FnDecl :=
  fn 3 "Store" [slotParam "target" .ref false] .nothing
    [buffer 4, ⟨5, .declare (pointer true (slotVar 6 "target")), .zero⟩,
      Assignment.stmt ⟨7, 8, .zero, slotVar 9 "buf", false, .zero⟩
        (pointer true (slotVar 6 "target"))]

/-- Points a reference to the slot, then to the parameter, and stores the slot through it. -/
def divert : FnDecl :=
  fn 10 "Divert" [slotParam "target" .ref false] .nothing
    [buffer 11, ⟨12, .declare (pointer false (slotVar 13 "buf")), .zero⟩,
      Assignment.stmt ⟨14, 15, .zero, slotVar 16 "target", true, .zero⟩
        (pointer false (slotVar 13 "buf")),
      Assignment.stmt ⟨17, 18, .zero, slotVar 19 "buf", false, .zero⟩
        (pointer false (slotVar 13 "buf"))]

/-- A class with some functions. -/
def decl (members : List FnDecl) : TypeDecl :=
  ⟨2, "Relay", .classType, false, false, [], [], [], [], members, .zero⟩

/-- A program with slots and some functions. -/
def programOf (members : List FnDecl) : Program :=
  ⟨[⟨1, "Slot", .refStruct, false, false, [], [], [], [], [], .zero⟩, decl members]⟩

/-- The program with both functions. -/
def program : Program := programOf [store, divert]

/-- Both functions are accepted and store a confined slot where a slot has to live until after the
call. -/
theorem narrower_stored_through_alias :
    (program.analyze {}).isOk = true ∧ program.DistinctIds ∧
      (program.analyze {}).facts.pair? 6 = some ⟨.callingMethod, .returnOnly, false⟩ ∧
      (program.analyze {}).facts.pair? 9 = some ⟨.currentMethod, .currentMethod, false⟩ ∧
      (program.analyze {}).facts.pair? 16 = some ⟨.callingMethod, .returnOnly, false⟩ ∧
      (program.analyze {}).facts.pair? 19 = some ⟨.currentMethod, .currentMethod, false⟩ ∧
      ¬ Level.callingMethod ≤ Level.currentMethod := by
  decide +kernel

/-- Stored without a reference in between, or through one that is neither `scoped` nor diverted, the
slot is refused. -/
example : ((programOf [fn 3 "Store" [slotParam "target" .ref false] .nothing
    [buffer 4, ⟨7, .assign (slotVar 8 "target") (slotVar 9 "buf") false, .zero⟩]]).analyze
      {}).escapeErrors = [⟨.valueEscape "buf", .zero⟩] ∧
    ((programOf [fn 3 "Store" [slotParam "target" .ref false] .nothing
      [buffer 4, ⟨5, .declare (pointer false (slotVar 6 "target")), .zero⟩,
        ⟨7, .assign (slotVar 8 "r") (slotVar 9 "buf") false, .zero⟩]]).analyze {}).escapeErrors =
      [⟨.valueEscape "buf", .zero⟩] := by
  decide +kernel

/-- What `Divert` assigns: all of it respects the slot that the reference first points to, and not
all of it the parameter that it points to later. -/
theorem assigned_through_alias_divert :
    let env : Surroundings := ⟨program, ⟨decl [store, divert], divert⟩, true⟩
    let s := (Walk.checkStmt env (buffer 11)).after
      (program.bodyEntry true {} env.member (divert.body.getD []))
    let r := pointer false (slotVar 13 "buf")
    let t := (Walk.checkStmt env ⟨12, .declare r, .zero⟩).after s
    let a : Assignment := ⟨14, 15, .zero, slotVar 16 "target", true, .zero⟩
    let u := (Walk.checkStmts env [a.stmt r]).after t
    (∀ between a pair, Assignment.byRef a = false → a.Reached env r t between pair →
        .currentMethod ≤ pair.value) ∧
      ¬ ∀ between a pair, Assignment.byRef a = false → a.Reached env r u between pair →
        .callingMethod ≤ pair.value := by
  intro env s r t a u
  have hs : s.ctx.scopes ≠ [] := List.cons_ne_nil _ _
  have hstack : (s.types env).stackOnly r.ty = true := rfl
  have hdeclared : (Walk.checkStmt env ⟨12, .declare r, .zero⟩).Accepted s := rfl
  have hrecorded : t.facts.pair? (slotVar 13 "buf").id = some .confined := rfl
  have hboth := Walk.assigned_through_alias rfl hs rfl hstack hdeclared hrecorded rfl
  have ha : a.Reached env r t [] ⟨.callingMethod, .returnOnly, false⟩ :=
    ⟨by simp [Binders.ofStmts], rfl, rfl, rfl⟩
  refine ⟨hboth.1.2 (Or.inl rfl), fun h => ?_⟩
  have hname : r.name ∉ Binders.ofExpr a.value := by
    simp [a, slotVar, Binders.ofExpr, Binders.ofKind]
  have hlevel := (hboth.2 [] a _ rfl ha hname).2.1 h
  exact absurd hlevel (by decide)

end Relay

end StackEscape
