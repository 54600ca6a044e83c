import StackEscape.Json.Record
import StackEscape.Proofs.JsonText
import Mathlib.Data.List.Forall2

/-!
# Reading back records and variants

A reader gets back what was written for a thing when it spends no more on it than the depth of what was
written. That is shown here for lists, for variants, and for the fields of records, once and for all
readers; the reader of a record has then only to look its fields up.

## Main definitions

* `StackEscape.Json.ReadsBack` — a reader gets a thing back from a value.
* `StackEscape.Json.Fields.orNull` — reading what may be null.

## Main results

* `StackEscape.Json.Value.depth_record_le_iff`, `depth_arr_le_iff` — depth, part by part.
* `StackEscape.Json.Value.fields?_record` — the fields of a record are read back.
* `StackEscape.Json.ReadsBack.record`, `enum`, `list`, `ofOption` — readers of records, variants, lists
  and parts that may be missing.
-/

set_option autoImplicit false

namespace StackEscape.Json

attribute [simp] distinct Value.Plain.null Value.Plain.bool Value.Plain.int Value.Plain.string

/-! ## Depth -/

namespace Value

theorem depthItems_le_iff {items : List Value} {d : Nat} :
    depthItems items ≤ d ↔ ∀ v ∈ items, v.depth ≤ d := by
  induction items with
  | nil => simp [depthItems]
  | cons v items ih => simp only [depthItems, Nat.max_le, ih, List.forall_mem_cons]

theorem depthFields_le_iff {fields : List (Text × Value)} {d : Nat} :
    depthFields fields ≤ d ↔ ∀ e ∈ fields, e.2.depth ≤ d := by
  induction fields with
  | nil => simp [depthFields]
  | cons e fields ih => simp only [depthFields, Nat.max_le, ih, List.forall_mem_cons]

/-- An array is one level above its items. -/
theorem depth_arr_le_iff {items : List Value} {d : Nat} :
    (arr items).depth ≤ d ↔ ∃ b, d = b + 1 ∧ ∀ v ∈ items, v.depth ≤ b := by
  cases d with
  | zero => simp [depth]
  | succ d => simp [depth, depthItems_le_iff]

/-- A record is one level above its fields. -/
theorem depth_record_le_iff {fields : Fields} {d : Nat} :
    (record fields).depth ≤ d ↔ ∃ b, d = b + 1 ∧ ∀ e ∈ fields, e.2.depth ≤ b := by
  cases d with
  | zero => simp [depth, record]
  | succ d =>
    simp only [depth, record, Nat.add_le_add_iff_right, depthFields_le_iff, List.forall_mem_map]
    simp

/-! ## Scalars -/

@[simp] theorem string?_string (s : String) : (string s).string? = some s := rfl

@[simp] theorem bool?_bool (b : Bool) : (bool b).bool? = some b := rfl

theorem natBelow?_nat {bound n : Nat} (h : n < bound) : (nat n).natBelow? bound = some n :=
  if_pos h

@[simp] theorem word32?_nat (n : UInt32) : (nat n.toNat).word32? = some n := by
  rw [word32?, natBelow?_nat n.toNat_lt, Option.map_some, UInt32.ofNat_toNat]

@[simp] theorem word64?_nat (n : UInt64) : (nat n.toNat).word64? = some n := by
  rw [word64?, natBelow?_nat n.toNat_lt, Option.map_some, UInt64.ofNat_toNat]

@[simp] theorem int64?_int (n : Int64) : (int n.toInt).int64? = some n := by
  rw [int64?, if_pos ⟨n.minValue_le_toInt, n.toInt_le⟩, Int64.ofInt_toInt]

/-! ## Fields -/

/-- The fields of a record are read back, if their names are the known ones and no name repeats. -/
@[simp] theorem fields?_record {fields : Fields} {names : List String}
    (hnames : fields.map Prod.fst = names) (hdistinct : distinct names = true) :
    (record fields).fields? names = some fields := by
  subst hnames
  have hread : (fields.map fun e => (Text.whole e.1, e.2)).mapM
      (fun e => e.1.whole?.map fun k => (k, e.2)) = some fields := by
    rw [List.mapM_map]
    exact (List.mapM_pure (m := Option) (f := id)).trans (congrArg _ (List.map_id _))
  have hknown : fields.filter (fun e => (fields.map Prod.fst).contains e.1) = fields :=
    List.filter_eq_self.2 fun e he => by
      simpa using ⟨e.2, he⟩
  simp only [record, fields?, hread, Option.bind_eq_bind, Option.bind_some, hknown, hdistinct,
    if_true]

end Value

namespace Fields

variable {α : Type}

@[simp] theorem req_cons (k name : String) (v : Value) (fs : Fields) (read : Value → Option α) :
    req ((k, v) :: fs) name read = if name = k then read v else req fs name read := by
  rw [req, req, List.lookup_cons]
  by_cases h : name = k
  · simp [h]
  · simp [h, beq_eq_false_iff_ne.2 h]

/-- Reads what may be null. -/
def orNull (read : Value → Option α) : Value → Option (Option α)
  | .null => some none
  | v => (read v).map some

@[simp] theorem opt_cons (k name : String) (v : Value) (fs : Fields) (read : Value → Option α) :
    opt ((k, v) :: fs) name read = if name = k then orNull read v else opt fs name read := by
  rw [opt, opt, List.lookup_cons]
  by_cases h : name = k
  · cases v <;> simp [h, orNull]
  · simp [h, beq_eq_false_iff_ne.2 h]

end Fields

/-! ## Readers -/

/-- The reader gets the thing back from the plain value that was written for it, given a budget of its
depth. -/
structure ReadsBack {α : Type} (read : Nat → Value → Option α) (v : Value) (a : α) : Prop where
  /-- The value is plain. -/
  plain : v.Plain
  /-- The thing is read from it. -/
  eq : ∀ d, v.depth ≤ d → read d v = some a

namespace ReadsBack

variable {α : Type} {read : Nat → Value → Option α} {a : α}

/-- A string. -/
theorem string (s : String) : ReadsBack (fun _ => Value.string?) (.string s) s :=
  ⟨.string s, fun _ _ => rfl⟩

/-- A truth value. -/
theorem bool (b : Bool) : ReadsBack (fun _ => Value.bool?) (.bool b) b :=
  ⟨.bool b, fun _ _ => rfl⟩

/-- A signed number. -/
theorem int64 (n : Int64) : ReadsBack (fun _ => Value.int64?) (.int n.toInt) n :=
  ⟨.int _, fun _ _ => Value.int64?_int n⟩

/-- A variant without content. -/
theorem enum {variants : List (String × α)} {name : String} (h : variants.lookup name = some a) :
    ReadsBack (readEnum variants) (.string name) a :=
  ⟨.string name, fun d _ => by cases d <;> exact h⟩

/-- A record, given that its reader gets the thing back once one level is taken off the budget. -/
theorem record {fields : Fields} (hplain : ∀ e ∈ fields, e.2.Plain)
    (h : ∀ d, (∀ e ∈ fields, e.2.depth ≤ d) → read (d + 1) (.record fields) = some a) :
    ReadsBack read (.record fields) a := by
  refine ⟨.record hplain, fun d hd => ?_⟩
  obtain ⟨b, rfl, hb⟩ := Value.depth_record_le_iff.1 hd
  exact h b hb

/-- A list, if its items are read back one by one. -/
theorem list {readAll : Nat → Value → Option (List α)} {items : List Value} {l : List α}
    (hall : ∀ d items, readAll (d + 1) (.arr items) = items.mapM (read d))
    (h : List.Forall₂ (ReadsBack read) items l) : ReadsBack readAll (.arr items) l := by
  have hplain : ∀ v ∈ items, v.Plain := by
    induction h with
    | nil => nofun
    | cons hv _ ih => exact List.forall_mem_cons.2 ⟨hv.plain, ih⟩
  refine ⟨.arr hplain, fun d hd => ?_⟩
  obtain ⟨b, rfl, hb⟩ := Value.depth_arr_le_iff.1 hd
  rw [hall]
  clear hplain hd
  induction h with
  | nil => rfl
  | cons hv _ ih =>
    rw [List.forall_mem_cons] at hb
    simp [hv.eq b hb.1, ih hb.2]

/-- A list whose items are written one by one. -/
theorem ofList {write : α → Value} {l : List α} (h : ∀ a ∈ l, ReadsBack read (write a) a) :
    ReadsBack (readList read) (.ofList write l) l :=
  .list (fun _ _ => rfl) (List.forall₂_map_left_iff.2 (List.forall₂_same.2 h))

/-- A part that is missing. -/
theorem orNull_none : ReadsBack (fun d => Fields.orNull (read d)) .null none :=
  ⟨.null, fun _ _ => rfl⟩

/-- A part that need not be there. -/
theorem orNull_some {v : Value} (h : ReadsBack read v a) (hv : v ≠ .null) :
    ReadsBack (fun d => Fields.orNull (read d)) v (some a) := by
  refine ⟨h.plain, fun d hd => ?_⟩
  cases v <;> first | exact absurd rfl hv | exact congrArg (Option.map some) (h.eq d hd)

/-- A part that is written as null where it is missing. -/
theorem ofOption {write : α → Value} {o : Option α} (h : ∀ a ∈ o, ReadsBack read (write a) a)
    (hwrite : ∀ a, write a ≠ .null) :
    ReadsBack (fun d => Fields.orNull (read d)) (.ofOption write o) o := by
  cases o with
  | none => exact orNull_none
  | some a => exact orNull_some (h a rfl) (hwrite a)

end ReadsBack

end StackEscape.Json
