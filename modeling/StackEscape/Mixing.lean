import StackEscape.Scope.Pair
import StackEscape.Tree.Basic

/-!
# Argument mixing

A callee may store what one argument holds through another one. So for every two arguments of a
call, what flows in through the first must escape at least as far as storage reached through the
second demands.

## Main definitions

* `StackEscape.MixingArg` — an argument, or the receiver, as this rule sees it.
* `StackEscape.MixingArg.sourceLevel`, `sinkLevel` — what it lets in, and what it demands.
* `StackEscape.Mixing.violations` — the pairs of arguments that break the rule.

## Main results

* `StackEscape.Mixing.mem_violations_iff` — exactly which pairs are reported.
-/

set_option autoImplicit false

namespace StackEscape

/-- An argument as the mixing rule sees it. -/
structure MixingArg where
  /-- The name of the parameter it is bound to; `this` for a receiver. -/
  param : String
  /-- The argument's pair. -/
  pair : ScopePair
  /-- How it is passed. -/
  mode : RefKind
  /-- May its type be stack-only? -/
  stackOnly : Bool
  /-- Is the parameter declared `scoped`? -/
  paramScoped : Bool
  /-- Is it a variable declared in place, without a value yet? -/
  fresh : Bool
  /-- Is it the receiver of a member that may write through it? -/
  writableReceiver : Bool
  /-- Where it is. -/
  span : Span
  deriving Inhabited, Repr

namespace MixingArg

/-- How far what the argument lets into the callee may escape; `none` if it lets nothing in. -/
def sourceLevel (a : MixingArg) : Option Level :=
  if a.mode = .out || a.fresh then none
  else if a.stackOnly then
    if a.mode = .none && a.paramScoped then none else some a.pair.value
  else if a.mode.isByRef && !a.paramScoped then some a.pair.ref
  else none

/-- How far whatever is stored through the argument has to escape; `none` if nothing can be. -/
def sinkLevel (a : MixingArg) : Option Level :=
  if !a.stackOnly || a.fresh then none
  else if a.mode = .ref || a.mode = .out || a.writableReceiver then some a.pair.value
  else none

end MixingArg

namespace Mixing

/-- A pair of arguments, by position, of which the first must not flow into the second. -/
structure Violation where
  /-- Where the value comes from. -/
  source : Nat
  /-- Where it could be stored. -/
  sink : Nat
  deriving DecidableEq, Inhabited, Repr

/-- The positions through which something can be stored, with the level they demand. -/
def sinks (args : List MixingArg) : List (Nat × Level) :=
  args.zipIdx.filterMap fun (a, i) => a.sinkLevel.map fun l => (i, l)

/-- The positions through which something flows in, with the level it has. Arguments that were given
up count for nothing. -/
def sources (args : List MixingArg) : List (Nat × Level) :=
  args.zipIdx.filterMap fun (a, i) =>
    if a.pair.isInvalid then none else a.sourceLevel.map fun l => (i, l)

/-- Every pair of arguments that breaks the rule, by source and then by sink. -/
def violations (args : List MixingArg) : List Violation :=
  (sources args).flatMap fun (source, level) =>
    (sinks args).filterMap fun (sink, required) =>
      if sink ≠ source && !level.allowed required then some ⟨source, sink⟩ else none

theorem mem_sinks_iff {args : List MixingArg} {i : Nat} {l : Level} :
    (i, l) ∈ sinks args ↔ ∃ a, args[i]? = some a ∧ a.sinkLevel = some l := by
  simp only [sinks, List.mem_filterMap, Prod.exists, List.mem_zipIdx_iff_getElem?,
    Option.map_eq_some_iff, Prod.mk.injEq]
  constructor
  · rintro ⟨a, j, ha, m, hm, rfl, rfl⟩; exact ⟨a, ha, hm⟩
  · rintro ⟨a, ha, hm⟩; exact ⟨a, i, ha, l, hm, rfl, rfl⟩

theorem mem_sources_iff {args : List MixingArg} {i : Nat} {l : Level} :
    (i, l) ∈ sources args ↔
      ∃ a, args[i]? = some a ∧ a.pair.isInvalid = false ∧ a.sourceLevel = some l := by
  simp only [sources, List.mem_filterMap, Prod.exists, List.mem_zipIdx_iff_getElem?]
  constructor
  · rintro ⟨a, j, ha, h⟩
    cases hv : a.pair.isInvalid with
    | true => simp [hv] at h
    | false =>
      simp only [hv, Bool.false_eq_true, if_false, Option.map_eq_some_iff, Prod.mk.injEq] at h
      obtain ⟨m, hm, rfl, rfl⟩ := h
      exact ⟨a, ha, hv, hm⟩
  · rintro ⟨a, ha, hv, hm⟩
    exact ⟨a, i, ha, by simp [hv, hm]⟩

/-- A pair is reported exactly if both arguments take part in the rule, are different, and the
source's level is not enough for the sink. -/
theorem mem_violations_iff {args : List MixingArg} {i j : Nat} :
    ⟨i, j⟩ ∈ violations args ↔
      ∃ l r, (i, l) ∈ sources args ∧ (j, r) ∈ sinks args ∧ j ≠ i ∧ ¬ r ≤ l := by
  simp only [violations, List.mem_flatMap, List.mem_filterMap, Prod.exists]
  constructor
  · rintro ⟨a, l, ha, b, r, hb, h⟩
    split at h
    · next hc =>
      simp only [Option.some.injEq, Violation.mk.injEq] at h
      obtain ⟨rfl, rfl⟩ := h
      simp only [ne_eq, Bool.and_eq_true, decide_eq_true_eq, Bool.not_eq_true',
        Level.allowed, decide_eq_false_iff_not] at hc
      exact ⟨l, r, ha, hb, hc⟩
    · simp at h
  · rintro ⟨l, r, ha, hb, hne, hle⟩
    exact ⟨i, l, ha, j, r, hb, by simp [hne, hle, Level.allowed]⟩

end Mixing

end StackEscape
