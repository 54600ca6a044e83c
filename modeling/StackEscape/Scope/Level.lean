/-!
# Scope levels

How far a value, or a reference to it, may escape. The levels form a chain, so that "may flow into"
is a comparison and combining two inputs takes the smaller level.

## Main definitions

* `StackEscape.Level` — the four levels, most restrictive first.
* `StackEscape.Level.narrower`, `wider` — the smaller and the larger of two levels.
* `StackEscape.Level.allowed` — whether something at one level may flow to where another is
  required.

## Main results

* `StackEscape.Level.le_refl`, `le_trans`, `le_antisymm`, `le_total` — the levels are a chain.
* `StackEscape.Level.le_narrower_iff` — `narrower` is the greatest lower bound.
-/

set_option autoImplicit false

namespace StackEscape

/-- How far something may escape, from most to least restrictive. -/
inductive Level where
  /-- It stays in the method that is running. -/
  | currentMethod
  /-- It may leave through a return, but not through a `ref` or `out` argument. -/
  | returnOnly
  /-- It may be stored in what the caller passed. -/
  | callingMethod
  /-- It may go anywhere. -/
  | unlimited
  deriving DecidableEq, Inhabited, Repr

namespace Level

/-- Position in the chain. -/
def rank : Level → Nat
  | currentMethod => 0
  | returnOnly => 1
  | callingMethod => 2
  | unlimited => 3

instance : LE Level := ⟨fun a b => a.rank ≤ b.rank⟩

instance : LT Level := ⟨fun a b => a.rank < b.rank⟩

instance (a b : Level) : Decidable (a ≤ b) := inferInstanceAs (Decidable (a.rank ≤ b.rank))

instance (a b : Level) : Decidable (a < b) := inferInstanceAs (Decidable (a.rank < b.rank))

/-- The more restrictive of two levels. -/
def narrower (a b : Level) : Level := if a ≤ b then a else b

/-- The less restrictive of two levels. -/
def wider (a b : Level) : Level := if a ≤ b then b else a

/-- May something that escapes up to `source` flow to where `target` is required? -/
def allowed (source target : Level) : Bool := decide (target ≤ source)

/-- How messages describe a level. -/
def describe : Level → String
  | currentMethod => "scoped to the current method"
  | returnOnly => "return-only"
  | callingMethod => "scoped to the calling method"
  | unlimited => "unscoped"

theorem le_refl (a : Level) : a ≤ a := Nat.le_refl a.rank

theorem le_trans {a b c : Level} (h : a ≤ b) (h' : b ≤ c) : a ≤ c := Nat.le_trans h h'

theorem le_antisymm {a b : Level} (h : a ≤ b) (h' : b ≤ a) : a = b := by
  cases a <;> cases b <;> first | rfl | exact absurd h (by decide) | exact absurd h' (by decide)

theorem le_total (a b : Level) : a ≤ b ∨ b ≤ a := Nat.le_total a.rank b.rank

theorem currentMethod_le (a : Level) : currentMethod ≤ a := Nat.zero_le a.rank

theorem le_unlimited (a : Level) : a ≤ unlimited := by cases a <;> decide

/-- `narrower` is the greatest lower bound. -/
theorem le_narrower_iff {a b c : Level} : c ≤ narrower a b ↔ c ≤ a ∧ c ≤ b := by
  cases a <;> cases b <;> cases c <;> decide

theorem narrower_le_left (a b : Level) : narrower a b ≤ a := (le_narrower_iff.1 (le_refl _)).1

theorem narrower_le_right (a b : Level) : narrower a b ≤ b := (le_narrower_iff.1 (le_refl _)).2

@[simp] theorem narrower_self (a : Level) : narrower a a = a := by cases a <;> rfl

theorem narrower_comm (a b : Level) : narrower a b = narrower b a := by
  cases a <;> cases b <;> rfl

theorem narrower_assoc (a b c : Level) :
    narrower (narrower a b) c = narrower a (narrower b c) := by
  cases a <;> cases b <;> cases c <;> rfl

@[simp] theorem allowed_iff {source target : Level} :
    allowed source target = true ↔ target ≤ source := by simp [allowed]

end Level

end StackEscape
