import StackEscape.Proofs.BodyHeeding

/-!
# Functions that may be suspended

The variables of an async function or an iterator outlive a call, so none of them may be stack-only.
Variables come from parameters, declarations, patterns, iterations and arguments, at any depth, and the
innermost function around them decides: in an accepted program none of those in a function that may be
suspended is stack-only. Only functions with a body have variables.

## Main definitions

* `StackEscape.Jobs.program` — two async functions, one of which has no body.

## Main results

* `StackEscape.Program.settled_walkMember` — what holds of the walk over a member.
* `StackEscape.Program.settled_of_isOk` — the same for an accepted program.
* `StackEscape.Jobs.pending_unsettled` — without a body the parameters are not looked at.
-/

set_option autoImplicit false

namespace StackEscape

namespace Program

variable {p : Program} {m : Member} {body : List Stmt} {T : Tables} {x : TypedPart}

/-! ## One member -/

/-- The walk over a member starts in a state of its own function. -/
theorem at_entry {I : Inspection} (hI : I.Sound) (hv : T.Valid)
    (hexact : I.strict → T.Exact I.env.program I.caps) :
    I.At ⟨[], I.env.member.decl.ret.isByRef, I.env.member.decl.ret.ty⟩ I.env.member.setting
      (I.env.program.entry T I.env.member) := by
  refine ⟨matches_entry hI hv hexact, ⟨fun scope hscope info hinfo => ?_, fun id pair hid => ?_⟩, rfl,
    rfl⟩
  · obtain rfl := List.mem_singleton.1 hscope
    exact absurd hinfo List.not_mem_nil
  · exact absurd hid (by simp [entry, Facts.pair?, Facts.empty])

/-- If no two declarations share a key, the parameters of a member are bound by what their types mean
there. -/
theorem params_entryContract {I : Inspection} (hI : I.Orderly) (hst : I.strict)
    (hexact : T.Exact I.env.program I.caps) :
    (I.env.program.entryContract T I.env.member).params = I.env.member.decl.params.map fun q =>
      ParamContract.ofParam q
        (((I.env.program.entry T I.env.member).types I.env).stackOnly q.ty) := by
  have hown : I.env.program.entryContract T I.env.member =
      Contract.ofMember I.caps I.env.program I.env.member :=
    (hexact.obtainMember (hI.keys hst) hI.mem).1
  rw [hown, ← hexact.caps_eq]
  rfl

/-- If the walk over a member finds no error, no variable is stack-only in a function that may be
suspended, neither a parameter of the member nor any other one. -/
theorem settled_walkMember {I : Inspection} (hI : I.Sound) (hst : I.strict)
    (hbody : I.env.member.decl.body = some body) (hv : T.Valid)
    (hexact : T.Exact I.env.program I.caps)
    (herrors : (I.env.program.walkMember I.env.runtime T I.env.member body).errors = []) :
    ∀ x ∈ I.env.member.typedParts, x.Settled I := by
  have hentry := at_entry hI hv fun _ => hexact
  have hbind := progress_bindMember I.env.program I.env.runtime T I.env.member
  have hnone := (progress_body I.env.program I.env.runtime T hbody).errors_eq_nil herrors
  obtain ⟨_, hintact, _⟩ := (Walk.Heeds.silent (I := I) (c := I.env.member.setting)
    fun facts => covers_bindMember I.env.program I.env.runtime T I.env.member
      ⟨[], I.env.member.decl.ret.isByRef, I.env.member.decl.ret.ty⟩ I.caps facts I.strict).run
        (List.nil_subset _) hI trivial _ hentry hnone
  have hbound := hentry.later hI hbind hintact
  have hinside : I.At (.ofMember I.env.member body) I.env.member.setting
      (I.env.program.bodyEntry I.env.runtime T I.env.member body) := by
    refine ⟨hbound.point.withFunctions (direct_of_body hbody), hintact.withFunctions body,
      hbound.generics, ?_⟩
    rw [← hbound.suspends]
    simp only [WalkState.forbidsLocals, bodyEntry, WalkState.withFunctions, Context.function,
      Context.frames_declareFunctions]
  rw [walkMember_eq] at herrors
  obtain ⟨_, _, hparts⟩ := (heeds_body hbody).run (List.Subset.refl _) hI trivial _ hinside
    herrors
  rw [Member.typedParts, hbody, TypedPart.ofBody]
  refine List.forall_mem_append.2 ⟨fun x hx => ?_, hparts hst⟩
  obtain ⟨q, hq, rfl⟩ := List.mem_map.1 hx
  have hparams := Walk.Heeds.errors_bindParams I.env false
    (s := I.env.program.entry T I.env.member) (params_entryContract hI.orderly hst hexact)
  have hreported := hparams.symm.trans hnone
  exact Walk.Heeds.settled_param hst hentry
    (List.flatMap_eq_nil_iff.1 (List.append_eq_nil_iff.1 hreported).2 q hq)

/-! ## Accepted programs -/

/-- What is asked of an accepted program. -/
theorem wellFormed_of_isOk (hkeys : p.DistinctKeys) (hplain : p.PlainLocalFunctions)
    (hreg : p.RegularPatterns) (hok : (p.analyze {}).isOk = true) : p.WellFormed True := by
  rw [analyze_default] at hok
  simp only [Analysis.isOk, Bool.and_eq_true, List.isEmpty_iff, List.append_eq_nil_iff] at hok
  exact ⟨hreg, List.flatMap_eq_nil_iff.1 (List.append_eq_nil_iff.1 hok.2.1).1, fun _ => hplain,
    fun _ => hkeys⟩

/-- Annotations on its local functions are well placed too. -/
theorem wellPlaced_of_isOk (hkeys : p.DistinctKeys) (hplain : p.PlainLocalFunctions)
    (hreg : p.RegularPatterns) (hok : (p.analyze {}).isOk = true) (hm : m ∈ p.members) :
    Surroundings.WellPlaced ⟨p, m, true⟩ := by
  have hwf := wellFormed_of_isOk hkeys hplain hreg hok
  cases hbody : m.decl.body with
  | none =>
    refine ⟨hwf.placed, fun d hd => ?_⟩
    rw [Member.localFunctions, sites_eq_nil hbody] at hd
    exact absurd hd List.not_mem_nil
  | some body =>
    obtain ⟨before, _, herrors, _⟩ := walked_of_isOk hok hm hbody
    have hI : Inspection.Sound ⟨⟨p, m, true⟩, .empty, .empty, True⟩ := hwf.sound hm hbody herrors
    exact hI.placed

/-- So all contracts that are filed on the way are valid. -/
theorem valid_checkMembers_of_isOk (hkeys : p.DistinctKeys) (hplain : p.PlainLocalFunctions)
    (hreg : p.RegularPatterns) (hok : (p.analyze {}).isOk = true) {ms : List Member}
    (hms : ms ⊆ p.members) : (p.checkMembers true (p.declaredTables true) ms).2.Valid := by
  have hempty : (p.declaredTables true).Valid := fun k c hc => by simp [declaredTables] at hc
  exact checkMembers_keeps (P := Tables.Valid)
    (fun m hm _ _ hsteps h => h.steps (wellPlaced_of_isOk hkeys hplain hreg hok hm) hsteps) hempty hms

/-- What types mean in a member when the run is over is what they mean by the declarations. -/
theorem typesIn_eq (hkeys : p.DistinctKeys) (hplain : p.PlainLocalFunctions) (m : Member)
    (c : Setting) : p.typesIn m c = c.types ⟨p, m, true⟩ (p.declaredTables true).caps := by
  have hexact : (p.checkMembers true (p.declaredTables true) p.bodies).2.Exact p
      (p.declaredTables true).caps :=
    exact_checkMembers hkeys hplain true (.empty p _) (List.filter_subset_self _)
  rw [typesIn, analyze_default]
  exact congrArg (c.types ⟨p, m, true⟩) hexact.caps_eq

/-- **Variables that outlive a call.** In an accepted program no variable of a function that may be
suspended is stack-only: no parameter, no declared variable or resource, and no variable of a pattern,
an iteration or an argument, at any depth of any member with a body. -/
theorem settled_of_isOk (hkeys : p.DistinctKeys) (hplain : p.PlainLocalFunctions)
    (hreg : p.RegularPatterns) (hok : (p.analyze {}).isOk = true) (hm : m ∈ p.members)
    (hbody : m.decl.body.isSome = true) (hx : x ∈ m.typedParts) (hvar : x.role.isVariable = true)
    (hsuspends : x.setting.suspends = true) : (p.typesIn m x.setting).stackOnly x.ty = false := by
  obtain ⟨body, hbody⟩ := Option.isSome_iff_exists.1 hbody
  obtain ⟨before, hbefore, herrors, _⟩ := walked_of_isOk hok hm hbody
  have hI : (p.bodyInspection m True).Sound :=
    (wellFormed_of_isOk hkeys hplain hreg hok).sound hm hbody herrors
  have hexact : (p.checkMembers true (p.declaredTables true) before).2.Exact p
      (p.declaredTables true).caps := exact_checkMembers hkeys hplain true (.empty p _) hbefore
  rw [typesIn_eq hkeys hplain]
  exact settled_walkMember hI trivial hbody
    (valid_checkMembers_of_isOk hkeys hplain hreg hok hbefore) hexact herrors x hx hvar hsuspends

end Program

/-! ## Async functions -/

namespace Jobs

open Slots

/-- An async function. -/
def job (id : NodeId) (name : String) (params : List Param) (body : Option (List Stmt)) : FnDecl :=
  { fn id name params .nothing [] with
    modifiers := { (default : Modifiers) with isStatic := true, isAsync := true }
    body }

/-- Has a copy of what it is given, and a lambda for a slot. -/
def later : FnDecl :=
  job 3 "Later" [⟨"n", .int, .none, false, [], .zero⟩] <| some
    [⟨4, .declare ⟨"copy", .int, .none, false, some ⟨5, .var "n", .int, .zero⟩, .zero⟩, .zero⟩,
      ⟨6, .expr ⟨7, .lambda ⟨[slotParam "s" .none false], .void, [], false, false, false⟩, .object,
        .zero⟩, .zero⟩]

/-- Is given a slot, but has no body. -/
def pending : FnDecl := job 8 "Pending" [slotParam "s" .none false] none

/-- The class of both functions. -/
def decl : TypeDecl := ⟨2, "Jobs", .classType, false, false, [], [], [], [], [later, pending], .zero⟩

/-- A program with slots and async functions. -/
def program : Program :=
  ⟨[⟨1, "Slot", .refStruct, false, false, [], [], [], [], [], .zero⟩, decl]⟩

/-- The parameter of a function without a body is not looked at, even if the function is async. -/
theorem pending_unsettled :
    let m : Member := ⟨decl, pending⟩
    program.DistinctKeys ∧ program.PlainLocalFunctions ∧ program.RegularPatterns ∧
      (program.analyze {}).isOk = true ∧ m ∈ program.members ∧
      ∃ x ∈ m.typedParts, x.role.isVariable = true ∧ x.setting.suspends = true ∧
        (program.typesIn m x.setting).stackOnly x.ty = true :=
  ⟨by decide +kernel, by decide +kernel, by decide +kernel, by decide +kernel,
    List.mem_cons_of_mem _ (List.mem_cons_self ..),
    ⟨Member.setting ⟨decl, pending⟩, .param true, slotTy⟩, List.mem_cons_self .., rfl, rfl,
    by decide +kernel⟩

/-- The variables of a function with a body are looked at: its copy is none of a slot. -/
theorem settled_of_isOk_later :
    let m : Member := ⟨decl, later⟩
    let x : TypedPart := ⟨m.setting, .binding, .int⟩
    program.DistinctKeys ∧ program.PlainLocalFunctions ∧ program.RegularPatterns ∧
      (program.analyze {}).isOk = true ∧ m ∈ program.members ∧ m.decl.body.isSome = true ∧
      x ∈ m.typedParts ∧ x.role.isVariable = true ∧ x.setting.suspends = true ∧
      (program.typesIn m x.setting).stackOnly x.ty = false := by
  intro m x
  have hkeys : program.DistinctKeys := by decide +kernel
  have hplain : program.PlainLocalFunctions := by decide +kernel
  have hreg : program.RegularPatterns := by decide +kernel
  have hok : (program.analyze {}).isOk = true := by decide +kernel
  have hm : m ∈ program.members := List.mem_cons_self ..
  have hx : x ∈ m.typedParts := List.mem_of_getElem? (i := 3) rfl
  exact ⟨hkeys, hplain, hreg, hok, hm, rfl, hx, rfl, rfl,
    Program.settled_of_isOk hkeys hplain hreg hok hm rfl hx rfl rfl⟩

end Jobs

end StackEscape
