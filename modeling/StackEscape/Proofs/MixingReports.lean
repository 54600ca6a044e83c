import Mathlib.Data.List.Forall2
import StackEscape.Proofs.Sinks
import StackEscape.Proofs.WalkInduction

/-!
# Reports about operands that are passed together

A call whose operands must not be passed together reports each position through which something
could be stored once, and each position from which it would come once, however many pairs of
operands break the rule and in whatever order they are found.

## Main definitions

* `StackEscape.Contract.Mixes` — one operand must not be stored through another one.
* `StackEscape.Contract.SinkReport`, `SourceReport` — the error about a position.
* `StackEscape.OncePerPosition` — errors about some positions, each of which has one.
* `StackEscape.MixingReport.Tells` — what a report says of the pairs it has been given.

## Main results

* `StackEscape.MixingReport.Tells.add`, `Tells.foldl` — a report tells of every pair that is added.
* `StackEscape.Contract.mixingErrors_once` — the errors of operands that are passed together.
* `StackEscape.Walk.escapeErrors_invoke` — what a call reports about escaping.
-/

set_option autoImplicit false

namespace StackEscape

namespace Contract

variable {c : Contract} {receiver : Option Operand} {args : List Operand}

/-- What the operand at `i` lets into a call escapes less far than storage that is reached through
the operand at `j` demands. -/
def Mixes (c : Contract) (receiver : Option Operand) (args : List Operand) (i j : Nat) : Prop :=
  j ≠ i ∧ ∃ source sink level required,
    (c.mixingArgs receiver args)[i]? = some source ∧
      (c.mixingArgs receiver args)[j]? = some sink ∧
      source.sourceLevel = some level ∧ sink.sinkLevel = some required ∧ level < required

/-- What the mixing rule looks at is the operand at its position. -/
theorem exists_getElem?_of_mixingArgs {i : Nat} {a : MixingArg}
    (h : (c.mixingArgs receiver args)[i]? = some a) :
    ∃ op, (receiver.toList ++ args)[i]? = some op ∧
      (a = c.mixingReceiver op ∨ ∃ k, a = c.mixingArg op k) := by
  rw [mixingArgs, List.getElem?_append, List.length_map] at h
  rw [List.getElem?_append]
  split at h
  next hi =>
    rw [List.getElem?_map, Option.map_eq_some_iff] at h
    obtain ⟨op, hop, rfl⟩ := h
    exact ⟨op, by rw [if_pos hi, hop], .inl rfl⟩
  next hi =>
    rw [List.getElem?_map, Option.map_eq_some_iff] at h
    obtain ⟨⟨op, k⟩, hop, rfl⟩ := h
    rw [List.getElem?_zipIdx, Option.map_eq_some_iff] at hop
    obtain ⟨op', hop', hpair⟩ := hop
    obtain rfl : op' = op := congrArg Prod.fst hpair
    exact ⟨op', by rw [if_neg hi, hop'], .inr ⟨k, rfl⟩⟩

theorem mixes_of_mem_violations {v : Mixing.Violation}
    (h : v ∈ Mixing.violations (c.mixingArgs receiver args)) :
    c.Mixes receiver args v.source v.sink := by
  obtain ⟨level, required, hsource, hsink, hne, hle⟩ := Mixing.mem_violations_iff.1 h
  obtain ⟨source, hi, -, hlevel⟩ := Mixing.mem_sources_iff.1 hsource
  obtain ⟨sink, hj, hrequired⟩ := Mixing.mem_sinks_iff.1 hsink
  exact ⟨hne, source, sink, level, required, hi, hj, hlevel, hrequired, Nat.lt_of_not_le hle⟩

/-- Of operands that were not given up, every pair that breaks the rule is found. -/
theorem Mixes.mem_violations {i j : Nat} (h : c.Mixes receiver args i j)
    (hvalid : ∀ op ∈ receiver.toList ++ args, op.pair.isInvalid = false) :
    ⟨i, j⟩ ∈ Mixing.violations (c.mixingArgs receiver args) := by
  obtain ⟨hne, source, sink, level, required, hi, hj, hlevel, hrequired, hlt⟩ := h
  have hsure : source.pair.isInvalid = false := by
    obtain ⟨op, hop, rfl | ⟨k, rfl⟩⟩ := exists_getElem?_of_mixingArgs hi
    all_goals exact hvalid op (List.mem_of_getElem? hop)
  exact Mixing.mem_violations_iff.2 ⟨level, required, Mixing.mem_sources_iff.2
    ⟨source, hi, hsure, hlevel⟩, Mixing.mem_sinks_iff.2 ⟨sink, hj, hrequired⟩, hne,
    Nat.not_le_of_lt hlt⟩

/-! ## Errors and positions -/

/-- The error about a position through which something could be stored: it names the parameter. -/
def SinkReport (c : Contract) (receiver : Option Operand) (args : List Operand) (span : Span)
    (j : Nat) (e : EscapeError) : Prop :=
  ∃ sink, (c.mixingArgs receiver args)[j]? = some sink ∧
    e = ⟨.mixingViolation c.member sink.param, span⟩

/-- The error about a position from which something could be stored elsewhere: it stands at the
operand, and names what is too narrow for one of the others. -/
def SourceReport (c : Contract) (receiver : Option Operand) (args : List Operand) (facts : Facts)
    (i : Nat) (e : EscapeError) : Prop :=
  ∃ op j sink, (receiver.toList ++ args)[i]? = some op ∧ c.Mixes receiver args i j ∧
    (receiver.toList ++ args)[j]? = some sink ∧
    e = ⟨.valueEscape (op.blame facts sink.pair.value), op.span⟩

end Contract

/-- Errors about some positions, each of which has one. -/
structure OncePerPosition (About : Nat → EscapeError → Prop) (positions : List Nat)
    (errors : List EscapeError) : Prop where
  /-- No position is there twice. -/
  nodup : positions.Nodup
  /-- Each has its error. -/
  about : List.Forall₂ About positions errors

/-- A position that is new is added, and its error with it. -/
theorem OncePerPosition.add {About : Nat → EscapeError → Prop} {positions : List Nat}
    {errors : List EscapeError} (h : OncePerPosition About positions errors) {i : Nat}
    {e : EscapeError} (he : About i e) :
    OncePerPosition About (if positions.contains i then positions else i :: positions)
      ((if positions.contains i then [] else [e]) ++ errors) := by
  by_cases hi : positions.contains i = true
  · rwa [if_pos hi, if_pos hi, List.nil_append]
  · rw [if_neg hi, if_neg hi]
    exact ⟨.cons (by simpa using hi) h.nodup, .cons he h.about⟩

/-- There are errors if there are positions. -/
theorem OncePerPosition.eq_nil_iff {About : Nat → EscapeError → Prop} {positions : List Nat}
    {errors : List EscapeError} (h : OncePerPosition About positions errors) :
    errors = [] ↔ positions = [] := by
  rw [← List.length_eq_zero_iff, ← h.about.length_eq, List.length_eq_zero_iff]

/-- What is in the first of two lists that are related has something in the second one. -/
theorem exists_mem_of_forall₂ {α β : Type} {R : α → β → Prop} {l : List α} {l' : List β}
    (h : List.Forall₂ R l l') {a : α} (ha : a ∈ l) : ∃ b ∈ l', R a b := by
  induction h with
  | nil => exact absurd ha List.not_mem_nil
  | @cons a' b' _ _ hab _ ih =>
    rcases List.mem_cons.1 ha with rfl | ha
    · exact ⟨b', List.mem_cons_self, hab⟩
    · obtain ⟨b, hb, hrel⟩ := ih ha
      exact ⟨b, List.mem_cons_of_mem _ hb, hrel⟩

/-- Each error is about one of the positions. -/
theorem OncePerPosition.exists_about {About : Nat → EscapeError → Prop} {positions : List Nat}
    {errors : List EscapeError} (h : OncePerPosition About positions errors) {e : EscapeError}
    (he : e ∈ errors) : ∃ i ∈ positions, About i e :=
  exists_mem_of_forall₂ h.about.flip he

/-- Each position has its error. -/
theorem OncePerPosition.exists_error {About : Nat → EscapeError → Prop} {positions : List Nat}
    {errors : List EscapeError} (h : OncePerPosition About positions errors) {i : Nat}
    (hi : i ∈ positions) : ∃ e ∈ errors, About i e :=
  exists_mem_of_forall₂ h.about hi

theorem mem_ite_contains_iff {positions : List Nat} {i j : Nat} :
    j ∈ (if positions.contains i then positions else i :: positions) ↔ j ∈ positions ∨ i = j := by
  by_cases hi : positions.contains i = true
  · rw [if_pos hi]
    simp only [List.contains_iff_mem] at hi
    grind
  · rw [if_neg hi]
    grind

namespace MixingReport

variable {c : Contract} {receiver : Option Operand} {args : List Operand} {facts : Facts}
  {span : Span}

/-- The report is about the pairs it has been given, each sink and each source once. -/
structure Tells (c : Contract) (receiver : Option Operand) (args : List Operand) (facts : Facts)
    (span : Span) (vs : List Mixing.Violation) (r : MixingReport) : Prop where
  /-- The sinks that were reported. -/
  mem_sinks : ∀ j, j ∈ r.sinks ↔ ∃ v ∈ vs, v.sink = j
  /-- The sources that were reported. -/
  mem_sources : ∀ i, i ∈ r.sources ↔ ∃ v ∈ vs, v.source = i
  /-- The errors. -/
  errors : ∃ atSinks atSources, r.errors.Perm (atSinks ++ atSources) ∧
    OncePerPosition (c.SinkReport receiver args span) r.sinks atSinks ∧
    OncePerPosition (c.SourceReport receiver args facts) r.sources atSources

/-- One more pair: what is new of it is told. -/
theorem Tells.add {vs : List Mixing.Violation} {r : MixingReport}
    (h : r.Tells c receiver args facts span vs) {v : Mixing.Violation}
    (hv : c.Mixes receiver args v.source v.sink) :
    (r.add c.member (c.mixingArgs receiver args) (receiver.toList ++ args) facts span v).Tells c
      receiver args facts span (vs ++ [v]) := by
  obtain ⟨-, source, sink, -, -, hi, hj, -⟩ := id hv
  obtain ⟨op, hop, -⟩ := Contract.exists_getElem?_of_mixingArgs hi
  obtain ⟨into, hinto, -⟩ := Contract.exists_getElem?_of_mixingArgs hj
  have hsink : sinkError c.member (c.mixingArgs receiver args) span v.sink =
      [⟨.mixingViolation c.member sink.param, span⟩] := by
    simp [sinkError, hj]
  have hsource : sourceError facts (receiver.toList ++ args) v =
      [⟨.valueEscape (op.blame facts into.pair.value), op.span⟩] := by
    simp only [sourceError, hop, hinto]
  obtain ⟨atSinks, atSources, hperm, hsinks, hsources⟩ := h.errors
  refine ⟨fun j => ?_, fun i => ?_, _, _, ?_, hsinks.add ⟨sink, hj, rfl⟩,
    hsources.add ⟨op, _, into, hop, hv, hinto, rfl⟩⟩
  · rw [MixingReport.add, mem_ite_contains_iff, h.mem_sinks]
    simp [or_and_right, exists_or]
  · rw [MixingReport.add, mem_ite_contains_iff, h.mem_sources]
    simp [or_and_right, exists_or]
  · rw [MixingReport.add, hsink, hsource]
    refine List.perm_iff_count.2 fun e => ?_
    have hcount := hperm.count_eq e
    simp only [List.count_append] at hcount ⊢
    omega

/-- Any number of pairs, one after the other. -/
theorem Tells.foldl {done : List Mixing.Violation} {r : MixingReport}
    (h : r.Tells c receiver args facts span done) (vs : List Mixing.Violation)
    (hvs : ∀ v ∈ vs, c.Mixes receiver args v.source v.sink) :
    (vs.foldl (MixingReport.add c.member (c.mixingArgs receiver args) (receiver.toList ++ args)
      facts span) r).Tells c receiver args facts span (done ++ vs) := by
  induction vs generalizing done r with
  | nil => rwa [List.append_nil]
  | cons v rest ih =>
    obtain ⟨hv, hrest⟩ := List.forall_mem_cons.1 hvs
    rw [← List.singleton_append, ← List.append_assoc]
    exact ih (h.add hv) hrest

end MixingReport

namespace Contract

variable {c : Contract} {receiver : Option Operand} {args : List Operand}

/-- The report of a call tells of every pair that is found. -/
theorem tells_violations (c : Contract) (receiver : Option Operand) (args : List Operand)
    (facts : Facts) (span : Span) :
    ((Mixing.violations (c.mixingArgs receiver args)).foldl (MixingReport.add c.member
      (c.mixingArgs receiver args) (receiver.toList ++ args) facts span) {}).Tells c receiver args
      facts span (Mixing.violations (c.mixingArgs receiver args)) := by
  have hnone : ({} : MixingReport).Tells c receiver args facts span [] :=
    ⟨by simp, by simp, [], [], .nil, ⟨.nil, .nil⟩, ⟨.nil, .nil⟩⟩
  exact hnone.foldl _ fun _ => mixes_of_mem_violations

/-- Each error is about a sink or about a source. -/
theorem report_of_mem_mixingErrors {facts : Facts} {span : Span} {e : EscapeError}
    (he : e ∈ mixingErrors facts c receiver args span) :
    (∃ j, c.SinkReport receiver args span j e) ∨ ∃ i, c.SourceReport receiver args facts i e := by
  obtain ⟨atSinks, atSources, hperm, hsinks, hsources⟩ :=
    (tells_violations c receiver args facts span).errors
  rcases List.mem_append.1 (hperm.mem_iff.1 he) with he | he
  · obtain ⟨j, -, hj⟩ := hsinks.exists_about he
    exact .inl ⟨j, hj⟩
  · obtain ⟨i, -, hi⟩ := hsources.exists_about he
    exact .inr ⟨i, hi⟩

/-- **Operands that are passed together.** Every sink and every source of a pair that breaks the
rule has one error. -/
theorem mixingErrors_once (hvalid : ∀ op ∈ receiver.toList ++ args, op.pair.isInvalid = false)
    (facts : Facts) (span : Span) : ∃ sinks sources atSinks atSources,
      (mixingErrors facts c receiver args span).Perm (atSinks ++ atSources) ∧
      OncePerPosition (c.SinkReport receiver args span) sinks atSinks ∧
      (∀ j, j ∈ sinks ↔ ∃ i, c.Mixes receiver args i j) ∧
      OncePerPosition (c.SourceReport receiver args facts) sources atSources ∧
      ∀ i, i ∈ sources ↔ ∃ j, c.Mixes receiver args i j := by
  have htells := tells_violations c receiver args facts span
  obtain ⟨atSinks, atSources, hperm, hsinks, hsources⟩ := htells.errors
  refine ⟨_, _, atSinks, atSources, hperm, hsinks, fun j => ?_, hsources, fun i => ?_⟩
  · rw [htells.mem_sinks]
    constructor
    · rintro ⟨v, hv, rfl⟩
      exact ⟨v.source, mixes_of_mem_violations hv⟩
    · rintro ⟨i, h⟩
      exact ⟨⟨i, j⟩, h.mem_violations hvalid, rfl⟩
  · rw [htells.mem_sources]
    constructor
    · rintro ⟨v, hv, rfl⟩
      exact ⟨v.sink, mixes_of_mem_violations hv⟩
    · rintro ⟨j, h⟩
      exact ⟨⟨i, j⟩, h.mem_violations hvalid, rfl⟩

/-- An operand that could be stored where it is too narrow is reported at its place. -/
theorem Mixes.exists_valueEscape {i j : Nat} (h : c.Mixes receiver args i j)
    (hvalid : ∀ op ∈ receiver.toList ++ args, op.pair.isInvalid = false) (facts : Facts)
    (span : Span) : ∃ op name, (receiver.toList ++ args)[i]? = some op ∧
      ⟨.valueEscape name, op.span⟩ ∈ mixingErrors facts c receiver args span := by
  obtain ⟨_, sources, atSinks, atSources, hperm, -, -, hsources, hmem⟩ :=
    c.mixingErrors_once hvalid facts span
  obtain ⟨e, he, op, k, sink, hop, -, -, rfl⟩ := hsources.exists_error ((hmem i).2 ⟨j, h⟩)
  exact ⟨op, _, hop, hperm.mem_iff.2 (List.mem_append_right _ he)⟩

/-- A value is reported as too narrow only if some operands must not be passed together. -/
theorem exists_mixes_of_valueEscape {facts : Facts} {span : Span} {e : EscapeError} {name : String}
    (he : e ∈ mixingErrors facts c receiver args span) (hkind : e.kind = .valueEscape name) :
    ∃ i j, c.Mixes receiver args i j := by
  rcases report_of_mem_mixingErrors he with ⟨j, sink, -, rfl⟩ | ⟨i, op, j, sink, -, hmixes, -, -⟩
  · cases hkind
  · exact ⟨i, j, hmixes⟩

/-- Operands may be passed together if the stack-only ones all have the same level and no other one
is passed by a reference that is narrower. -/
theorem not_mixes_of_level {level : Level}
    (hvalue : ∀ op ∈ receiver.toList ++ args, op.stackOnly = true → op.pair.value = level)
    (href : ∀ op ∈ receiver.toList ++ args, op.stackOnly = false → op.mode.isByRef = true →
      level ≤ op.pair.ref) (i j : Nat) : ¬ c.Mixes receiver args i j := by
  rintro ⟨-, source, sink, l, r, hi, hj, hl, hr, hlt⟩
  have hdemand : r = level := by
    obtain ⟨op, hop, hsink⟩ := exists_getElem?_of_mixingArgs hj
    have hop := hvalue op (List.mem_of_getElem? hop)
    unfold MixingArg.sinkLevel at hr
    grind [mixingReceiver, mixingArg]
  have hsupply : level ≤ l := by
    obtain ⟨op, hop, hsource⟩ := exists_getElem?_of_mixingArgs hi
    have hvalue := hvalue op (List.mem_of_getElem? hop)
    have href := href op (List.mem_of_getElem? hop)
    have hrefl := Level.le_refl level
    unfold MixingArg.sourceLevel at hl
    grind [mixingReceiver, mixingArg, RefKind.isByRef]
  exact Nat.not_lt_of_le (hdemand ▸ hsupply) hlt

end Contract

namespace Walk

variable (env : Surroundings) {c : Contract} {receiver : Option Operand} {args : List Operand}

/-- All that is reported about variables declared in place is that they may not be there. -/
theorem reports_bindOutVars (env : Surroundings) (derived : Level) (isInvalid : Bool)
    (args : List Operand) : Reports (fun e => ∃ name ty, e.kind = .asyncOrIteratorLocal name ty)
      (bindOutVars env derived isInvalid args) := by
  have hreport (name : String) (ty : TypeRef) (span : Span) :
      Reports (fun e => ∃ name ty, e.kind = .asyncOrIteratorLocal name ty)
        (report (.asyncOrIteratorLocal name ty.display) span) :=
    Reports.reportAll fun e he => List.mem_singleton.1 he ▸ ⟨name, _, rfl⟩
  have hrejected (name : String) (ty : TypeRef) (span : Span) :
      Reports (fun e => ∃ name ty, e.kind = .asyncOrIteratorLocal name ty)
        (rejectedInAsync name ty span) := fun s =>
    Closed.ite (Reports.bind (hreport name ty span) fun _ => Reports.silent fun _ => rfl)
      (Reports.silent fun _ => rfl) s
  have hdeclare (info : LocalInfo) :
      Reports (fun e => ∃ name ty, e.kind = .asyncOrIteratorLocal name ty) (declare info) :=
    Reports.silent fun _ => rfl
  refine Reports.forM fun op => ?_
  unfold bindOutVar
  split
  · exact Reports.bind (Reports.silent fun _ => rfl) fun _ => Closed.ite
      (Reports.bind (hrejected _ _ _) fun _ => hdeclare _) (hdeclare _)
  · exact Reports.silent fun _ => rfl

/-- A call reports what is wrong with its operands, and then at most that a variable declared in
place may not be there. -/
theorem errors_invoke (hc : c.valid = true)
    (hvalid : ∀ op ∈ receiver.toList ++ args, op.pair.isInvalid = false) (resultTy : TypeRef)
    (span : Span) (s : WalkState) : ∃ later,
      ((invoke env c receiver args resultTy span).after s).errors =
        s.errors ++ mixingErrors s.facts c receiver args span ++ later ∧
      ∀ e ∈ later, ∃ name ty, e.kind = .asyncOrIteratorLocal name ty := by
  have hsure : ((receiver.toList ++ args).any fun op => op.pair.isInvalid) = false :=
    List.any_eq_false.2 fun op hop => by simp [hvalid op hop]
  unfold invoke
  rw [hc, hsure]
  exact reports_bindOutVars env (c.derivedLevel receiver args) false args
    { s with errors := s.errors ++ mixingErrors s.facts c receiver args span }

/-- Of what a call reports, what is about escaping is about its operands. -/
theorem filter_errors_invoke (hc : c.valid = true)
    (hvalid : ∀ op ∈ receiver.toList ++ args, op.pair.isInvalid = false) (resultTy : TypeRef)
    (span : Span) (s : WalkState) : ∃ added,
      ((invoke env c receiver args resultTy span).after s).errors = s.errors ++ added ∧
      (added.filter fun e => decide (e.errorClass = .escapeViolation)) =
        mixingErrors s.facts c receiver args span := by
  obtain ⟨later, hafter, hlater⟩ := errors_invoke env hc hvalid resultTy span s
  refine ⟨mixingErrors s.facts c receiver args span ++ later,
    by rw [hafter, List.append_assoc], ?_⟩
  have hall : ∀ e ∈ mixingErrors s.facts c receiver args span,
      e.errorClass = .escapeViolation := by
    intro e he
    rcases Contract.report_of_mem_mixingErrors he with ⟨j, sink, -, rfl⟩ |
      ⟨i, op, j, sink, -, -, -, rfl⟩ <;> rfl
  have hnone : ∀ e ∈ later, e.errorClass ≠ .escapeViolation := by
    intro e he
    obtain ⟨name, ty, hkind⟩ := hlater e he
    rw [EscapeError.errorClass, hkind]
    nofun
  rw [List.filter_append, List.filter_eq_self.2 fun e he => by simp [hall e he],
    List.filter_eq_nil_iff.2 fun e he => by simp [hnone e he], List.append_nil]

/-- **What a call reports about escaping.** Let a call of a member with a valid contract have
operands that were not given up. Every operand through which another one could be stored that
escapes less far has one error, which names its parameter; every operand that could be stored so has
one error, which stands at the operand; and nothing else is reported about escaping. So there are
errors of both kinds or of neither, and of neither if all stack-only operands have one level and no
other one is passed by a reference that is narrower. -/
theorem escapeErrors_invoke (hc : c.valid = true)
    (hvalid : ∀ op ∈ receiver.toList ++ args, op.pair.isInvalid = false) (resultTy : TypeRef)
    (span : Span) (s : WalkState) : ∃ added sinks sources atSinks atSources,
      ((invoke env c receiver args resultTy span).after s).errors = s.errors ++ added ∧
      (added.filter fun e => decide (e.errorClass = .escapeViolation)).Perm
        (atSinks ++ atSources) ∧
      OncePerPosition (c.SinkReport receiver args span) sinks atSinks ∧
      (∀ j, j ∈ sinks ↔ ∃ i, c.Mixes receiver args i j) ∧
      OncePerPosition (c.SourceReport receiver args s.facts) sources atSources ∧
      (∀ i, i ∈ sources ↔ ∃ j, c.Mixes receiver args i j) ∧
      (atSinks = [] ↔ atSources = []) ∧
      ∀ level : Level,
        (∀ op ∈ receiver.toList ++ args, op.stackOnly = true → op.pair.value = level) →
        (∀ op ∈ receiver.toList ++ args, op.stackOnly = false → op.mode.isByRef = true →
          level ≤ op.pair.ref) →
        (added.filter fun e => decide (e.errorClass = .escapeViolation)) = [] := by
  obtain ⟨added, hafter, hfilter⟩ := filter_errors_invoke env hc hvalid resultTy span s
  obtain ⟨sinks, sources, atSinks, atSources, hperm, hsinks, hmemSinks, hsources, hmemSources⟩ :=
    c.mixingErrors_once hvalid s.facts span
  have hnoSink : atSinks = [] ↔ ∀ i j, ¬ c.Mixes receiver args i j := by
    rw [hsinks.eq_nil_iff, List.eq_nil_iff_forall_not_mem]
    simp only [hmemSinks]
    grind
  have hnoSource : atSources = [] ↔ ∀ i j, ¬ c.Mixes receiver args i j := by
    rw [hsources.eq_nil_iff, List.eq_nil_iff_forall_not_mem]
    simp only [hmemSources]
    grind
  refine ⟨added, sinks, sources, atSinks, atSources, hafter, hfilter ▸ hperm, hsinks, hmemSinks,
    hsources, hmemSources, hnoSink.trans hnoSource.symm, fun level hvalue href => ?_⟩
  have hnone := Contract.not_mixes_of_level (c := c) hvalue href
  rw [hnoSink.2 hnone, hnoSource.2 hnone] at hperm
  exact hfilter ▸ hperm.eq_nil

end Walk

/-! ## Two sinks for one source -/

namespace Ladles

open Slots

/-- A function that could store the last slot in each of the others. -/
def pour : FnDecl :=
  fn 21 "Pour" [slotParam "left" .ref false, slotParam "right" .ref false,
    slotParam "from" .none false] .nothing []

/-- Its contract. -/
def contract : Contract := Contract.ofMember .empty Slots.program ⟨Slots.decl, pour⟩

/-- Two slots of the caller, and one that is confined. -/
def operands : List Operand :=
  [.ofExpr (slotVar 22 "a") ⟨.callingMethod, .returnOnly, false⟩ true .ref false,
    .ofExpr (slotVar 23 "b") ⟨.callingMethod, .returnOnly, false⟩ true .ref false,
    .ofExpr (slotVar 24 "buf") .confined true .none false]

/-- The surroundings of a body. -/
def env : Surroundings := ⟨Slots.program, ⟨Slots.decl, Slots.content⟩, true⟩

/-- A state in which nothing is known. -/
def start : WalkState := { ctx := ⟨[], []⟩, generics := [], tables := {} }

/-- The confined slot is reported once, although it could be stored in both of the others. -/
theorem escapeErrors_invoke_pour :
    contract.valid = true ∧
      (∀ op ∈ (none : Option Operand).toList ++ operands, op.pair.isInvalid = false) ∧
      ((Walk.invoke env contract none operands .void .zero).after start).errors =
        [⟨.mixingViolation "Slots.Pour" "left", .zero⟩, ⟨.valueEscape "buf", .zero⟩,
          ⟨.mixingViolation "Slots.Pour" "right", .zero⟩] ∧
      ∃ sinks sources atSinks atSources,
        OncePerPosition (contract.SinkReport none operands .zero) sinks atSinks ∧
        OncePerPosition (contract.SourceReport none operands start.facts) sources atSources ∧
        atSinks ≠ [] ∧ atSources ≠ [] := by
  have hc : contract.valid = true := by decide +kernel
  have hvalid : ∀ op ∈ (none : Option Operand).toList ++ operands, op.pair.isInvalid = false := by
    decide +kernel
  have hmixes : contract.Mixes none operands 2 0 :=
    ⟨by decide, _, _, .currentMethod, .callingMethod, rfl, rfl, by decide +kernel,
      by decide +kernel, by decide⟩
  refine ⟨hc, hvalid, by decide +kernel, ?_⟩
  obtain ⟨-, sinks, sources, atSinks, atSources, -, -, hsinks, hmem, hsources, -, hboth, -⟩ :=
    Walk.escapeErrors_invoke env hc hvalid .void .zero start
  have hsome : atSinks ≠ [] := fun hnone => by
    have := (hmem 0).2 ⟨2, hmixes⟩
    rw [hsinks.eq_nil_iff.1 hnone] at this
    exact absurd this List.not_mem_nil
  exact ⟨sinks, sources, atSinks, atSources, hsinks, hsources, hsome, fun h => hsome (hboth.2 h)⟩

end Ladles

end StackEscape
