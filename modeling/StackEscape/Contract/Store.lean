import StackEscape.Contract.Basic

/-!
# The table of contracts

Contracts are built when they are first needed and filed under the member's key. What is filed first
stays, also for other members with the same key.

## Main definitions

* `StackEscape.Contracts` — the table.
* `StackEscape.Contracts.obtain` — the contract under a key, filed now if there is none.
* `StackEscape.Contracts.ofMember` — the contract of a declared member.

## Main results

* `StackEscape.Contracts.obtain_fst` — what `obtain` answers.
-/

set_option autoImplicit false

namespace StackEscape

/-- The contracts filed so far. -/
abbrev Contracts := Table String Contract

namespace Contracts

/-- The contract under a key. If there is none, the given one is filed. -/
def obtain (t : Contracts) (key : String) (c : Contract) : Contract × Contracts :=
  match t.get? key with
  | some found => (found, t)
  | none => (c, t.keep key c)

/-- The contract of a declared member. -/
def ofMember (t : Contracts) (caps : Capabilities) (p : Program) (m : Member) :
    Contract × Contracts :=
  t.obtain m.key (Contract.ofMember caps p m)

/-- The contract under a key is the one that was filed first. -/
theorem obtain_fst (t : Contracts) (key : String) (c : Contract) :
    (t.obtain key c).1 = (t.get? key).getD c := by
  unfold obtain; cases t.get? key <;> rfl

end Contracts

end StackEscape
