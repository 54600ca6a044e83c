import StackEscape.Proofs.Forwarding

/-!
# Variables of enclosing functions

The body of a local function may return a reference to a variable of the functions around it. It is
accepted only if that variable outlives the local function, so what is confined is never returned. A
call of the local function, though, is derived from the operands of the call alone, and a reference
that may only be returned comes out of it without a bound.

## Main definitions

* `StackEscape.Loops.program` — a function that returns its parameter through a local function.

## Main results

* `StackEscape.Contract.derivedLevel_le_iff` — what a call is derived from, exactly.
* `StackEscape.Walk.ref_invoke_le_captured_iff` — when a call respects what its callee captures.
* `StackEscape.Loops.call_wider_than_captured` — a call that does not.
-/

set_option autoImplicit false

namespace StackEscape

/-! ## What a call is derived from -/

/-- The narrower of two levels is within a bound if one of them is. -/
theorem Level.narrower_le_iff {a b l : Level} : a.narrower b ≤ l ↔ a ≤ l ∨ b ≤ l := by
  cases a <;> cases b <;> cases l <;> decide

namespace Contract

/-- The narrowest of some levels is within a bound if one of them is. -/
theorem foldl_narrower_le_iff (levels : List Level) (start l : Level) :
    levels.foldl Level.narrower start ≤ l ↔ start ≤ l ∨ ∃ level ∈ levels, level ≤ l := by
  induction levels generalizing start with
  | nil => simp
  | cons level rest ih =>
    rw [List.foldl_cons, ih, Level.narrower_le_iff, List.exists_mem_cons_iff, or_assoc]

/-- What a call is derived from is within a bound if and only if one of its sources is, or if there
is no bound. -/
theorem derivedLevel_le_iff (c : Contract) (receiver : Option Operand) (args : List Operand)
    (l : Level) : c.derivedLevel receiver args ≤ l ↔ l = .unlimited ∨
      ∃ source ∈ c.returnSources, ∃ level, sourceLevel receiver args source = some level ∧
        level ≤ l := by
  have hunlimited : Level.unlimited ≤ l ↔ l = .unlimited :=
    ⟨fun h => Level.le_antisymm (Level.le_unlimited l) h, fun h => h ▸ Level.le_refl _⟩
  rw [derivedLevel, foldl_narrower_le_iff, hunlimited]
  refine or_congr_right ⟨?_, ?_⟩
  · rintro ⟨level, hmem, hle⟩
    obtain ⟨source, hs, hlevel⟩ := List.mem_filterMap.1 hmem
    exact ⟨source, hs, level, hlevel, hle⟩
  · rintro ⟨source, hs, level, hlevel, hle⟩
    exact ⟨level, List.mem_filterMap.2 ⟨source, hs, hlevel⟩, hle⟩

end Contract

/-! ## A function that returns what it captures -/

namespace Loops

open Slots

/-- Returns a reference to a variable of the function around it. -/
def again : FnDecl :=
  fn 4 "Again" [] (.byRef .int) [⟨5, .ret (some ⟨6, .var "x", .int, .zero⟩), .zero⟩]

/-- A reference parameter. -/
def refParam : Param := ⟨"x", .int, .ref, false, [], .zero⟩

/-- A call of the local function. -/
def callAgain : Expr := ⟨8, .call none ⟨.named "Loops" [], "Again"⟩ [] [], .int, .zero⟩

/-- A class with one function. -/
def decl (f : FnDecl) : TypeDecl :=
  ⟨1, "Loops", .classType, false, false, [], [], [], [], [f], .zero⟩

/-- Returns its parameter through a local function. -/
def through : FnDecl :=
  fn 2 "Through" [refParam] (.byRef .int)
    [⟨3, .localFunction again, .zero⟩, ⟨7, .ret (some callAgain), .zero⟩]

/-- A program that returns a parameter through a local function. -/
def program : Program := ⟨[decl through]⟩

/-- A program that keeps the value in a slot, where the parameter or the result of the local function
may be given. -/
def storing (value : Expr) : Program :=
  ⟨[⟨20, "Slot", .refStruct, false, false, [], [], [],
    [⟨"value", .int, false, false, false, true, .zero⟩], [], .zero⟩,
    decl (fn 2 "Store" [slotParam "slot" .ref false, refParam] (.byValue .void)
      [⟨3, .localFunction again, .zero⟩,
        ⟨7, .assign ⟨9, .field (some (slotVar 10 "slot")) slotTy "value", .int, .zero⟩ value true,
          .zero⟩])]⟩

end Loops

/-! ## What a body captures -/

namespace Walk

variable {env : Surroundings} {s : WalkState}

/-- What an accepted body returns by reference of a variable, its own or one of the functions around
it, outlives the call. -/
theorem returnOnly_le_of_returned {f : FunctionFrame} (hf : s.ctx.function = some f)
    (href : f.returnsByRef = true) {name : String} {found : Lookup}
    (hfound : s.ctx.lookup name = some found) (hv : found.info.pair.isInvalid = false)
    {id retId : NodeId} {ty : TypeRef} {span retSpan : Span}
    (haccepted : ((checkStmt env ⟨retId, .ret (some ⟨id, .var name, ty, span⟩), retSpan⟩).after
      s).errors = s.errors) : .returnOnly ≤ found.info.pair.ref :=
  (returnable_of_accepted (Finds.expr (Finds.variable hfound id ty span)) hv hf haccepted).1 href

/-- A call of a function whose body returns a variable by reference, be it one of the functions around
it, is no wider than this variable if and only if an operand of the call is no wider, or if the
variable has no bound anyway. The variable itself has no influence. -/
theorem ref_invoke_le_captured_iff {c : Contract} (hvalid : c.valid = true)
    (href : c.returnsByRef = true)
    -- The body that returns the variable is accepted.
    {f : FunctionFrame} (hf : s.ctx.function = some f) (hframe : f.returnsByRef = c.returnsByRef)
    {name : String} {found : Lookup} (hfound : s.ctx.lookup name = some found)
    (hv : found.info.pair.isInvalid = false) {id retId : NodeId} {ty : TypeRef}
    {span retSpan : Span}
    (haccepted : ((checkStmt env ⟨retId, .ret (some ⟨id, .var name, ty, span⟩), retSpan⟩).after
      s).errors = s.errors)
    -- A call somewhere.
    {caller : Surroundings} {t : WalkState} {receiver : Option Operand} {args : List Operand}
    (hops : ∀ op ∈ receiver.toList ++ args, op.pair.isInvalid = false) (resultTy : TypeRef)
    (callSpan : Span) :
    let result := ((invoke caller c receiver args resultTy callSpan).answer t).result
    .returnOnly ≤ found.info.pair.ref ∧ result.isInvalid = false ∧
      (result.ref ≤ found.info.pair.ref ↔ found.info.pair.ref = .unlimited ∨
        ∃ source ∈ c.returnSources, ∃ level,
          Contract.sourceLevel receiver args source = some level ∧
            level ≤ found.info.pair.ref) := by
  intro result
  have hresult : result = c.resultPair ((t.types caller).stackOnly resultTy)
      (c.derivedLevel receiver args) := result_invoke hvalid hops resultTy callSpan
  refine ⟨returnOnly_le_of_returned hf (hframe.trans href) hfound hv haccepted, ?_, ?_⟩
  · rw [hresult]
    exact Contract.resultPair_isInvalid _ _ _
  · rw [hresult, Contract.ref_resultPair href, Contract.derivedLevel_le_iff]

/-- The local function of `Through`, which takes no operands. -/
theorem ref_invoke_le_captured_iff_loops :
    let p := Loops.program
    let env : Surroundings := ⟨p, ⟨Loops.decl Loops.through, Loops.through⟩, true⟩
    let outer := p.bodyEntry true {} env.member (Loops.through.body.getD [])
    let c := outer.localContract env Loops.again
    let s := outer.inFunction .localFunction (localFrame outer Loops.again c)
    let result := ((invoke env c none [] .int .zero).answer outer).result
    (∃ found, s.ctx.lookup "x" = some found ∧ found.crossed = some .localFunction ∧
      found.info.pair = ⟨.unlimited, .returnOnly, false⟩) ∧
    ((checkStmts env (Loops.again.body.getD [])).after s).errors = s.errors ∧
      result.isInvalid = false ∧ ¬ result.ref ≤ .returnOnly := by
  intro p env outer c s result
  let found : Lookup :=
    ⟨boundParam Loops.refParam (.ofParam Loops.refParam false), some .localFunction⟩
  have hfound : s.ctx.lookup "x" = some found := rfl
  have haccepted : ((checkStmt env ⟨5, .ret (some ⟨6, .var "x", .int, .zero⟩), .zero⟩).after
      s).errors = s.errors := rfl
  have hops : ∀ op ∈ (none : Option Operand).toList ++ [], op.pair.isInvalid = false := by simp
  obtain ⟨_, hvalid, hiff⟩ : .returnOnly ≤ found.info.pair.ref ∧ result.isInvalid = false ∧
      (result.ref ≤ found.info.pair.ref ↔ found.info.pair.ref = .unlimited ∨
        ∃ source ∈ c.returnSources, ∃ level, Contract.sourceLevel none [] source = some level ∧
          level ≤ found.info.pair.ref) :=
    ref_invoke_le_captured_iff rfl rfl rfl rfl hfound rfl haccepted hops .int .zero
  refine ⟨⟨found, hfound, rfl, rfl⟩, haccepted, hvalid, fun hle => ?_⟩
  rcases hiff.1 hle with hnone | ⟨source, hsource, _⟩
  · exact absurd hnone (by decide)
  · exact absurd hsource List.not_mem_nil

end Walk

/-! ## A reference that comes out without a bound -/

namespace Loops

/-- The parameter may only be returned, but the call that returns it has no bound, and there is no
error. -/
theorem call_wider_than_captured :
    (ParamContract.ofParam refParam false).pair = ⟨.unlimited, .returnOnly, false⟩ ∧
      (program.analyze {}).isOk = true ∧
      (program.analyze {}).facts.pair? 6 = some ⟨.unlimited, .returnOnly, false⟩ ∧
      (program.analyze {}).facts.pair? 8 = some ⟨.unlimited, .unlimited, false⟩ ∧
      ¬ Level.unlimited ≤ Level.returnOnly := by
  decide +kernel

/-- So a parameter that must not be kept in a slot is kept there, through the local function. -/
example : ((storing ⟨8, .var "x", .int, .zero⟩).analyze {}).escapeErrors =
      [⟨.refAssignmentEscape "x" "value", .zero⟩] ∧
    ((storing callAgain).analyze {}).isOk = true := by
  decide +kernel

end Loops

end StackEscape
