/-!
# Finite tables

A finite map kept as the list of its entries. Two ways of storing are offered, because the analysis
needs both: `Table.set` replaces what was stored under a key, `Table.keep` leaves a key alone that
already has a value.

## Main definitions

* `StackEscape.Table` — a finite map from `κ` to `ν`.
* `StackEscape.Table.get?`, `set`, `keep`, `size`, `merge` — look-up and the two ways of storing.

## Main results

* `StackEscape.Table.get?_set`, `get?_keep` — what a look-up finds after each way of storing.
* `StackEscape.Table.get?_merge` — entries of the second table win in a merge.
-/

set_option autoImplicit false

namespace StackEscape

/-- A finite map. The first entry of a key is the one that counts. -/
structure Table (κ ν : Type) where
  /-- The entries, latest first. -/
  entries : List (κ × ν) := []

namespace Table

variable {κ ν : Type} [DecidableEq κ]

/-- The table without entries. -/
def empty : Table κ ν := ⟨[]⟩

instance : Inhabited (Table κ ν) := ⟨empty⟩

instance : EmptyCollection (Table κ ν) := ⟨empty⟩

/-- The value stored under a key. -/
def get? (t : Table κ ν) (k : κ) : Option ν := t.entries.lookup k

/-- Does the key have a value? -/
def contains (t : Table κ ν) (k : κ) : Bool := (t.get? k).isSome

/-- Store a value, replacing what the key had before. -/
def set (t : Table κ ν) (k : κ) (v : ν) : Table κ ν :=
  ⟨(k, v) :: t.entries.filter fun e => decide (e.1 ≠ k)⟩

/-- Store a value unless the key already has one. -/
def keep (t : Table κ ν) (k : κ) (v : ν) : Table κ ν :=
  if t.contains k then t else ⟨(k, v) :: t.entries⟩

/-- The number of keys, as long as entries were stored through `set` and `keep`. -/
def size (t : Table κ ν) : Nat := t.entries.length

/-- Are there no entries? -/
def isEmpty (t : Table κ ν) : Bool := t.entries.isEmpty

/-- Every entry of `b` stored into `a`; `b` wins where both have a value. -/
def merge (a b : Table κ ν) : Table κ ν :=
  b.entries.foldr (fun e t => t.set e.1 e.2) a

@[simp] theorem get?_empty (k : κ) : (empty : Table κ ν).get? k = none := rfl

private theorem lookup_filter_ne (l : List (κ × ν)) {k k' : κ} (h : k' ≠ k) :
    (l.filter fun e => decide (e.1 ≠ k)).lookup k' = l.lookup k' := by
  induction l with
  | nil => rfl
  | cons e l ih =>
    obtain ⟨a, v⟩ := e
    by_cases ha : a = k
    · subst ha
      have hne : (k' == a) = false := by simpa using h
      simpa [List.filter_cons, List.lookup_cons, hne] using ih
    · by_cases hk : k' = a
      · subst hk
        simp [ha]
      · have hne : (k' == a) = false := by simpa using hk
        simpa [List.filter_cons, List.lookup_cons, ha, hne] using ih

/-- After `set`, the key has the new value and every other key what it had. -/
theorem get?_set (t : Table κ ν) (k k' : κ) (v : ν) :
    (t.set k v).get? k' = if k' = k then some v else t.get? k' := by
  by_cases h : k' = k
  · subst h
    simp [set, get?]
  · have hne : (k' == k) = false := by simpa using h
    simp only [set, get?, List.lookup_cons, hne, h, if_false]
    exact lookup_filter_ne t.entries h

/-- After `keep`, a key that had a value still has it. -/
theorem get?_keep (t : Table κ ν) (k k' : κ) (v : ν) :
    (t.keep k v).get? k' = if k' = k then some ((t.get? k).getD v) else t.get? k' := by
  unfold keep contains
  cases hk : t.get? k with
  | some w =>
    by_cases h : k' = k
    · subst h; simp [hk]
    · simp [h]
  | none =>
    by_cases h : k' = k
    · subst h; simp [get?]
    · have hne : (k' == k) = false := by simpa using h
      simp [get?, List.lookup_cons, hne, h]

/-- In a merge the second table wins. -/
theorem get?_merge (a b : Table κ ν) (k : κ) :
    (a.merge b).get? k = (b.get? k).or (a.get? k) := by
  obtain ⟨l⟩ := b
  unfold merge
  induction l with
  | nil => simp [get?]
  | cons e l ih =>
    obtain ⟨c, v⟩ := e
    simp only [List.foldr_cons, get?_set, ih]
    by_cases h : k = c
    · subst h; simp [get?]
    · have hne : (k == c) = false := by simpa using h
      simp [get?, List.lookup_cons, hne, h]

end Table

end StackEscape
