import StackEscape.Proofs.OutVars

/-!
# Derivation and mixing

A contract says twice what a call lets out of its operands: once by the sources of its result, which
are listed with the declaration, and once by the mixing rule, which looks at how operands are
passed. The first is never wider than the second. So a variable that is declared in place may take
the level that the result is derived from: as an argument that holds a value of that level it would
break no rule.

## Main definitions

* `StackEscape.Contract.Matches` — the operands of a call that fits a contract.

## Main results

* `StackEscape.Contract.Matches.derivedLevel_le` — what a call is derived from is no wider than what
  any operand lets in.
* `StackEscape.Mixing.violations_set` — an argument through which nothing can be stored is as good
  as one through which everything fits.
* `StackEscape.Walk.invoke_derives_mixing` — both for a call, together with the variables it
  declares.
* `StackEscape.Tapes.derived_wider_than_mixing` — calls that do not fit.
-/

set_option autoImplicit false

namespace StackEscape

/-! ## Sources of both kinds -/

namespace Contract

/-- The operands are those of a call that fits the contract: one for each parameter, passed as the
parameter says, and a receiver where there is one in the contract. The receiver is no variable that
is declared in place. -/
structure Matches (c : Contract) (receiver : Option Operand) (args : List Operand) : Prop where
  /-- None of them was given up. -/
  valid : ∀ op ∈ receiver.toList ++ args, op.pair.isInvalid = false
  /-- There is a receiver where the contract has one. -/
  hasReceiver : receiver.isSome = c.receiver.isSome
  /-- It has a value. -/
  settled : ∀ op ∈ receiver, op.fresh = false
  /-- Arguments are passed as the parameters say, and stack-only where these are. -/
  passed : args.map (fun op => (op.mode, op.stackOnly)) =
    c.params.map fun q => (q.refKind, q.stackOnly)

/-- The parameter of an argument. -/
theorem Matches.param {c : Contract} {receiver : Option Operand} {args : List Operand}
    (h : c.Matches receiver args) {i : Nat} {op : Operand} (hop : args[i]? = some op) :
    ∃ q, c.params[i]? = some q ∧ q.refKind = op.mode ∧ q.stackOnly = op.stackOnly := by
  have hboth := congrArg (fun l => l[i]?) h.passed
  simp only [List.getElem?_map, hop, Option.map_some] at hboth
  obtain ⟨q, hq, heq⟩ := Option.map_eq_some_iff.1 hboth.symm
  exact ⟨q, hq, congrArg Prod.fst heq, congrArg Prod.snd heq⟩

/-- What the mixing rule sees. -/
theorem mem_mixingArgs_iff {c : Contract} {receiver : Option Operand} {args : List Operand}
    {m : MixingArg} : m ∈ c.mixingArgs receiver args ↔
      (∃ op, receiver = some op ∧ m = c.mixingReceiver op) ∨
        ∃ i op, args[i]? = some op ∧ m = c.mixingArg op i := by
  simp only [mixingArgs, List.mem_append, List.mem_map, Option.mem_toList, Prod.exists,
    List.mem_zipIdx_iff_getElem?]
  refine or_congr (exists_congr fun op => and_congr_right fun _ => eq_comm) ?_
  rw [exists_comm]
  exact exists_congr fun i => exists_congr fun op => and_congr_right fun _ => eq_comm

section Build

variable {caps : Capabilities} {p : Program} {owner : TypeDecl} {decl : FnDecl} {key : String}
  {scope : GenericScope} {isLocal : Bool} {receiver : Option Operand} {args : List Operand}

/-- What flows in through an argument is one of the sources of its parameter. -/
theorem exists_via_of_sourceLevel {c : Contract} {q : ParamContract} {i : Nat} {op : Operand}
    (hq : c.params[i]? = some q) (hmode : q.refKind = op.mode) (hstack : q.stackOnly = op.stackOnly)
    (hop : args[i]? = some op) {l : Level} (hl : (c.mixingArg op i).sourceLevel = some l) :
    ∃ via ∈ q.vias, sourceLevel receiver args ⟨.param i, via⟩ = some l := by
  simp only [MixingArg.sourceLevel, mixingArg, hq] at hl
  simp only [ParamContract.vias, hmode, hstack]
  cases hfresh : op.fresh with
  | true => simp [hfresh] at hl
  | false =>
    simp only [hfresh, Bool.or_false] at hl
    split at hl
    · cases hl
    next hout =>
    rw [if_neg (by simpa using hout)]
    cases hs : op.stackOnly with
    | true =>
      -- The value flows in, unless it is passed by value to a `scoped` parameter.
      simp only [hs, if_true] at hl
      split at hl
      · cases hl
      next hconfined =>
      refine ⟨.value, List.mem_append_right _ ?_, ?_⟩
      · simp [Bool.eq_false_iff.2 hconfined]
      · simpa [sourceLevel, operand?, hop, hfresh, hs] using hl
    | false =>
      -- Only a reference flows in.
      simp only [hs, Bool.false_eq_true, if_false] at hl
      split at hl
      next href =>
        refine ⟨.ref, List.mem_append_left _ ?_, ?_⟩
        · rw [if_pos href]
          exact List.mem_singleton.2 rfl
        · simpa [sourceLevel, operand?, hop] using hl
      · cases hl

/-- What a call is derived from is no wider than what any operand lets in. -/
theorem Matches.derivedLevel_le
    (h : (build caps p owner decl key scope isLocal).Matches receiver args)
    {m : MixingArg} (hm : m ∈ (build caps p owner decl key scope isLocal).mixingArgs receiver args)
    {l : Level} (hl : m.sourceLevel = some l) :
    (build caps p owner decl key scope isLocal).derivedLevel receiver args ≤ l := by
  rcases mem_mixingArgs_iff.1 hm with ⟨op, rfl, rfl⟩ | ⟨i, op, hop, rfl⟩
  · obtain ⟨q, hq⟩ := Option.isSome_iff_exists.1 h.hasReceiver.symm
    obtain ⟨_, hsources⟩ := receiver_of_build hq
    have hmem : (⟨.receiver, .value⟩ : ReturnSource) ∈
        (build caps p owner decl key scope isLocal).returnSources := by
      rw [hsources]
      exact List.mem_append_left _ (by simp [receiverSources])
    have hfresh : op.fresh = false := h.settled op rfl
    refine Contract.derivedLevel_le hmem ?_
    cases hs : op.stackOnly with
    | true =>
      simpa [MixingArg.sourceLevel, mixingReceiver, sourceLevel, operand?, hfresh, hs] using hl
    | false => simp [MixingArg.sourceLevel, mixingReceiver, RefKind.isByRef, hs] at hl
  · obtain ⟨q, hq, hmode, hstack⟩ := h.param hop
    obtain ⟨via, hvia, hlevel⟩ :
        ∃ via ∈ q.vias, sourceLevel receiver args ⟨.param _, via⟩ = some _ :=
      exists_via_of_sourceLevel hq hmode hstack hop hl
    exact Contract.derivedLevel_le (List.mem_append_right _ (mem_paramSources hq hvia)) hlevel

end Build

end Contract

/-! ## Sinks that nothing exceeds -/

/-- Where one element is replaced, a filter over positions changes if the element counts. -/
theorem filterMap_zipIdx_set {α β : Type} {f : α × Nat → Option β} {b : α} {l : List α} {i k : Nat}
    (h : ∀ a, l[i]? = some a → f (b, k + i) = f (a, k + i)) :
    ((l.set i b).zipIdx k).filterMap f = (l.zipIdx k).filterMap f := by
  induction l generalizing i k with
  | nil => rfl
  | cons x rest ih =>
    cases i with
    | zero =>
      have hx : f (b, k) = f (x, k) := h x rfl
      simp only [List.set_cons_zero, List.zipIdx_cons, List.filterMap_cons, hx]
    | succ i =>
      have hrest := ih (i := i) (k := k + 1) fun a ha => by
        rw [Nat.add_right_comm]
        exact h a ha
      simp only [List.set_cons_succ, List.zipIdx_cons, List.filterMap_cons, hrest]

namespace Mixing

/-- An argument that lets nothing in, and through which everything fits that others let in, takes
part in no violation. -/
theorem violations_set {args : List MixingArg} {i : Nat} {a b : MixingArg}
    (hi : args[i]? = some a) (ha : a.sourceLevel = none) (hsink : a.sinkLevel = none)
    (hb : b.sourceLevel = none)
    (hfits : ∀ d, b.sinkLevel = some d → ∀ m ∈ args, ∀ l, m.sourceLevel = some l → d ≤ l) :
    violations (args.set i b) = violations args ∧
      ∀ v ∈ violations args, v.source ≠ i ∧ v.sink ≠ i := by
  have hget (c : MixingArg) (hc : args[i]? = some c) : c = a := by
    rw [hi] at hc
    exact (Option.some.inj hc).symm
  have hsources : sources (args.set i b) = sources args :=
    filterMap_zipIdx_set fun c hc => by simp [hget c hc, ha, hb]
  refine ⟨?_, fun v hv => ?_⟩
  · simp only [violations, hsources]
    refine List.flatMap_congr fun x hs => ?_
    obtain ⟨source, level⟩ := x
    simp only [sinks, List.filterMap_filterMap]
    refine filterMap_zipIdx_set fun c hc => ?_
    rw [hget c hc]
    cases hbsink : b.sinkLevel with
    | none => simp [hsink]
    | some d =>
      obtain ⟨m, hm, _, hl⟩ := mem_sources_iff.1 hs
      have hle : d ≤ level := hfits d hbsink m (List.mem_of_getElem? hm) level hl
      simp [hsink, Level.allowed, hle]
  · obtain ⟨source, sink⟩ := v
    obtain ⟨l, r, hs, hr, _⟩ := mem_violations_iff.1 hv
    obtain ⟨m, hm, _, hl⟩ := mem_sources_iff.1 hs
    obtain ⟨n, hn, hrl⟩ := mem_sinks_iff.1 hr
    constructor
    · rintro rfl
      rw [hget m hm, ha] at hl
      cases hl
    · rintro rfl
      rw [hget n hn, hsink] at hrl
      cases hrl

end Mixing

/-! ## Calls -/

namespace Contract

/-- What the mixing rule sees where one argument is replaced. -/
theorem mixingArgs_set (c : Contract) (receiver : Option Operand) (args : List Operand) (i : Nat)
    (o : Operand) : c.mixingArgs receiver (args.set i o) =
      (c.mixingArgs receiver args).set (receiver.toList.length + i) (c.mixingArg o i) := by
  have hset (f : Operand × Nat → MixingArg) (l : List Operand) (i k : Nat) :
      ((l.set i o).zipIdx k).map f = ((l.zipIdx k).map f).set i (f (o, k + i)) := by
    induction l generalizing i k with
    | nil => rfl
    | cons x rest ih =>
      cases i with
      | zero => rfl
      | succ i =>
        simp only [List.set_cons_succ, List.zipIdx_cons, List.map_cons, ih, Nat.add_right_comm k 1,
          Nat.add_assoc]
  unfold mixingArgs
  rw [hset, List.set_append_right _ _ (by simp), List.length_map, Nat.add_sub_cancel_left,
    Nat.zero_add]

/-- The place of an argument, as the mixing rule counts. -/
theorem getElem?_mixingArgs (c : Contract) (receiver : Option Operand) {args : List Operand}
    {i : Nat} {op : Operand} (hop : args[i]? = some op) :
    (c.mixingArgs receiver args)[receiver.toList.length + i]? = some (c.mixingArg op i) := by
  unfold mixingArgs
  rw [List.getElem?_append_right (by simp)]
  simp [List.getElem?_zipIdx, hop]

section Build

variable {caps : Capabilities} {p : Program} {owner : TypeDecl} {decl : FnDecl} {key : String}
  {scope : GenericScope} {isLocal : Bool} {receiver : Option Operand} {args : List Operand}

/-- In place of a variable that is declared in place, an argument for output that holds what the
call is derived from breaks no rule, and has no influence on what is reported of the others. -/
theorem Matches.mixingErrors_set
    (h : (build caps p owner decl key scope isLocal).Matches receiver args) {i : Nat} {op : Operand}
    (hop : args[i]? = some op) (hfresh : op.fresh = true) {o : Operand} (hout : o.mode = .out)
    (hvalue : o.pair.value = (build caps p owner decl key scope isLocal).derivedLevel receiver args)
    (facts : Facts) (span : Span) :
    let c := build caps p owner decl key scope isLocal
    (∀ v ∈ Mixing.violations (c.mixingArgs receiver (args.set i o)),
      v.source ≠ receiver.toList.length + i ∧ v.sink ≠ receiver.toList.length + i) ∧
    mixingErrors facts c receiver (args.set i o) span =
      mixingErrors facts c receiver args span := by
  intro c
  have hsink (d : Level) (hd : (c.mixingArg o i).sinkLevel = some d) :
      d = c.derivedLevel receiver args := by
    unfold MixingArg.sinkLevel at hd
    split at hd
    · cases hd
    · split at hd
      · exact (Option.some.inj hd).symm.trans hvalue
      · cases hd
  obtain ⟨hsame, hnone⟩ := Mixing.violations_set (c.getElem?_mixingArgs receiver hop)
    (by simp [MixingArg.sourceLevel, mixingArg, hfresh])
    (by simp [MixingArg.sinkLevel, mixingArg, hfresh])
    (b := c.mixingArg o i) (by simp [MixingArg.sourceLevel, mixingArg, hout])
    (fun d hd m hm l hl => hsink d hd ▸ h.derivedLevel_le hm hl)
  rw [mixingArgs_set, hsame]
  refine ⟨hnone, ?_⟩
  simp only [mixingErrors, mixingArgs_set, hsame]
  refine congrArg MixingReport.errors (List.foldl_ext _ _ _ fun r v hv => ?_)
  obtain ⟨hsource, hsinkAt⟩ := hnone v hv
  -- What is reported of a violation reads both operands of it, and no others.
  have hoperand {j : Nat} (hj : j ≠ receiver.toList.length + i) :
      (receiver.toList ++ args.set i o)[j]? = (receiver.toList ++ args)[j]? := by
    have happend : receiver.toList ++ args.set i o =
        (receiver.toList ++ args).set (receiver.toList.length + i) o := by
      rw [List.set_append_right _ _ (by simp), Nat.add_sub_cancel_left]
    rw [happend, List.getElem?_set_ne (Ne.symm hj)]
  simp only [MixingReport.add, sinkError, sourceError, hoperand hsource, hoperand hsinkAt,
    List.getElem?_set_ne (Ne.symm hsinkAt)]

end Build

end Contract

namespace Walk

/-- A call of which an operand was given up reports nothing of its operands. -/
theorem errors_invoke_of_invalid {c : Contract} {receiver : Option Operand} {args : List Operand}
    {op : Operand} (hop : op ∈ receiver.toList ++ args) (hinvalid : op.pair.isInvalid = true)
    (env : Surroundings) (resultTy : TypeRef) (span : Span) (s : WalkState) :
    ((invoke env c receiver args resultTy span).after s).errors = s.errors := by
  obtain ⟨errors, hafter, herrors⟩ := run_invoke env c receiver args resultTy span s
  rw [hafter]
  exact herrors (List.any_eq_true.2 ⟨op, hop, hinvalid⟩)

/-- **Derivation covers mixing.** A call that fits a well-placed contract is derived from a level
that is no wider than what any of its operands lets in. The variables of its arguments are declared
with that level, and with such a variable an argument for output in the same place takes part in no
violation and leaves what is reported of the others as it is; if the variable is refused in its
function, such a call reports nothing at all.

**Proof sketch.** By the parameter of each operand: where the mixing rule sees a source, the
contract lists the same level of the same operand. -/
theorem invoke_derives_mixing (env : Surroundings) (s : WalkState) {caps : Capabilities}
    {p : Program} {owner : TypeDecl} {decl : FnDecl} {key : String} {scope : GenericScope}
    {isLocal : Bool} {receiver : Option Operand} {args : List Operand}
    (hvalid : (Contract.build caps p owner decl key scope isLocal).valid = true)
    (h : (Contract.build caps p owner decl key scope isLocal).Matches receiver args)
    (resultTy : TypeRef) (span : Span) :
    let c := Contract.build caps p owner decl key scope isLocal
    let derived := ((invoke env c receiver args resultTy span).answer s).derived
    (∀ m ∈ c.mixingArgs receiver args, ∀ l, m.sourceLevel = some l → derived ≤ l) ∧
    ((invoke env c receiver args resultTy span).after s).ctx = s.ctx.declareAll
      ((args.filterMap (outLocal? (s.types env) derived false)).map
        (LocalInfo.restrict s.forbidsLocals)) ∧
    ∀ i op info, args[i]? = some op → outLocal? (s.types env) derived false op = some info →
      op.stackOnly = true → info.pair = ⟨derived, .currentMethod, false⟩ ∧
      ∀ o : Operand, o.mode = .out → o.fresh = false →
        o.pair = (info.restrict s.forbidsLocals).pair →
        if o.pair.isInvalid then
          ∀ t, ((invoke env c receiver (args.set i o) resultTy span).after t).errors = t.errors
        else o.pair.value = derived ∧
          (∀ v ∈ Mixing.violations (c.mixingArgs receiver (args.set i o)),
            v.source ≠ receiver.toList.length + i ∧ v.sink ≠ receiver.toList.length + i) ∧
          ∀ facts, mixingErrors facts c receiver (args.set i o) span =
            mixingErrors facts c receiver args span := by
  intro c derived
  replace hvalid : c.valid = true := hvalid
  have hnone : ((receiver.toList ++ args).any fun op => op.pair.isInvalid) = false := by
    rw [List.any_eq_false]
    exact fun op hop => by simp [h.valid op hop]
  have hderived : derived = c.derivedLevel receiver args := by
    change ((invoke env c receiver args resultTy span).answer s).derived = _
    rw [answer_invoke]
    simp [Contract.outcome, hvalid, hnone]
  have hlocals : outLocals (s.types env) c receiver args =
      args.filterMap (outLocal? (s.types env) derived false) := by
    simp [outLocals, hvalid, hnone, hderived]
  refine ⟨fun m hm l hl => hderived ▸ h.derivedLevel_le hm hl, ?_, ?_⟩
  · rw [ctx_invoke, hlocals]
    rfl
  intro i op info hop hinfo hstack
  obtain ⟨hfresh, e, name, _, _, rfl⟩ := outLocal?_eq_some_iff.1 hinfo
  have hpair : (LocalInfo.ordinary (s.types env) name e.ty (op.placedPair derived false)).pair =
      ⟨derived, .currentMethod, false⟩ := by
    simp [LocalInfo.ordinary, Operand.placedPair, hstack]
  refine ⟨hpair, fun o hout _ ho => ?_⟩
  split
  next hinvalid =>
    have hmem : o ∈ receiver.toList ++ args.set i o :=
      List.mem_append_right _ (List.mem_set (List.getElem?_eq_some_iff.1 hop).1 o)
    exact fun t => errors_invoke_of_invalid hmem hinvalid env resultTy span t
  next hvalid =>
    have hvalue : o.pair.value = derived := by
      rw [ho] at hvalid ⊢
      unfold LocalInfo.restrict at hvalid ⊢
      split at hvalid
      · exact absurd rfl hvalid
      next hfree => rw [if_neg hfree, hpair]
    obtain ⟨hviolations, herrors⟩ :=
      h.mixingErrors_set hop hfresh hout (hvalue.trans hderived) .empty span
    exact ⟨hvalue, hviolations, fun facts =>
      (h.mixingErrors_set hop hfresh hout (hvalue.trans hderived) facts span).2⟩

end Walk

/-! ## Calls that do not fit -/

namespace Tapes

open Slots

/-- The type of tapes. -/
def tapeTy : TypeRef := .named "Tape" []

/-- Copies a slot, out of a tape and what it is given. -/
def copy : FnDecl :=
  { fn 3 "Copy" [slotParam "from" .none false, slotParam "to" .out false] .nothing [] with
    modifiers := default }

/-- The same, with an annotation that may not stand there. -/
def misplaced : FnDecl :=
  { fn 4 "Move" [slotParam "from" .none false, slotParam "to" .out false] .nothing [] with
    attrs := [⟨.unscopedRef, .zero⟩] }

/-- Tapes hold slots. -/
def tape : TypeDecl :=
  ⟨2, "Tape", .refStruct, false, false, [], [], [], [], [copy, misplaced], .zero⟩

/-- A program with slots and tapes. -/
def program : Program :=
  ⟨[⟨1, "Slot", .refStruct, false, false, [], [], [], [], [], .zero⟩, tape]⟩

/-- The contract of a member of tapes. -/
def contract (decl : FnDecl) : Contract := Contract.ofMember .empty program ⟨tape, decl⟩

/-- A function that is given slots and a tape. -/
def visit : FnDecl :=
  fn 5 "Visit" [slotParam "slot" .none false, slotParam "buf" .none true,
    ⟨"tape", tapeTy, .none, false, [], .zero⟩] .nothing []

/-- The surroundings of its body. -/
def env : Surroundings := ⟨program, ⟨tape, visit⟩, true⟩

/-- The state in which its body is entered. -/
def start : WalkState := program.bodyEntry true {} env.member []

/-- A tape that the function is given. -/
def given : Expr := ⟨6, .var "tape", tapeTy, .zero⟩

/-- A tape that is declared in place. -/
def inPlace : Expr := ⟨7, .outVar "other", tapeTy, .zero⟩

/-- The receiver of a call. -/
def receiver (e : Expr) : Option Operand := (Walk.checkReceiver env (some e)).answer start

/-- The arguments of a call: a slot by the name of a variable, and one that is declared in place. -/
def args (name : String) : List Operand :=
  (Walk.checkArgs env [⟨.none, slotVar 8 name⟩, ⟨.out, ⟨9, .outVar "to", slotTy, .zero⟩⟩]).answer
    start

/-- What a call is derived from. -/
def derived (decl : FnDecl) (receiver : Option Operand) (args : List Operand) : Level :=
  ((Walk.invoke env (contract decl) receiver args .void .zero).answer start).derived

/-- A tape that is declared in place lets in, by the mixing rule, what stays in the method, but the
call of which it is the receiver is derived from more. And a call of a member with an ill-placed
annotation is derived from nothing at all. -/
theorem derived_wider_than_mixing :
    ((∀ op ∈ (receiver inPlace).toList ++ args "slot", op.pair.isInvalid = false) ∧
      (receiver inPlace).isSome = (contract copy).receiver.isSome ∧
      (args "slot").map (fun op => (op.mode, op.stackOnly)) =
        (contract copy).params.map (fun q => (q.refKind, q.stackOnly)) ∧
      (∃ m ∈ (contract copy).mixingArgs (receiver inPlace) (args "slot"),
        m.sourceLevel = some .currentMethod) ∧
      derived copy (receiver inPlace) (args "slot") = .callingMethod) ∧
    (contract misplaced).Matches none (args "buf") ∧
      (∃ m ∈ (contract misplaced).mixingArgs none (args "buf"),
        m.sourceLevel = some .currentMethod) ∧
      derived misplaced none (args "buf") = .unlimited := by
  have hsource (decl : FnDecl) (receiver : Option Operand) (args : List Operand)
      (h : (((contract decl).mixingArgs receiver args).any fun m =>
        decide (m.sourceLevel = some .currentMethod)) = true) :
      ∃ m ∈ (contract decl).mixingArgs receiver args, m.sourceLevel = some .currentMethod := by
    simpa using h
  exact ⟨⟨by decide +kernel, by decide +kernel, by decide +kernel,
      hsource _ _ _ (by decide +kernel), by decide +kernel⟩,
    ⟨by decide +kernel, by decide +kernel, by simp, by decide +kernel⟩,
    hsource _ _ _ (by decide +kernel), by decide +kernel⟩

/-- The slot that a tape gives may be returned no farther than the tape and the slot that it is
given. -/
theorem invoke_derives_mixing_tape :
    let c := contract copy
    c.valid = true ∧ c.Matches (receiver given) (args "buf") ∧
      derived copy (receiver given) (args "buf") = .currentMethod ∧
      ∀ m ∈ c.mixingArgs (receiver given) (args "buf"), ∀ l, m.sourceLevel = some l →
        .currentMethod ≤ l := by
  intro c
  have hvalid : c.valid = true := by decide +kernel
  have hmatches : c.Matches (receiver given) (args "buf") :=
    ⟨by decide +kernel, by decide +kernel, by decide +kernel, by decide +kernel⟩
  have hderived : derived copy (receiver given) (args "buf") = .currentMethod := by decide +kernel
  obtain ⟨hle, _⟩ := Walk.invoke_derives_mixing env start hvalid hmatches .void .zero
  exact ⟨hvalid, hmatches, hderived, fun m hm l hl => hderived ▸ hle m hm l hl⟩

end Tapes

end StackEscape
