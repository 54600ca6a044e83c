import StackEscape.Json.Reader
import StackEscape.Json.Writer
import Mathlib.Data.List.TakeWhile
import Mathlib.Tactic.SplitIfs

/-!
# Reading back JSON texts

What the compact layout writes for a value is read back as that value, for every value whose strings
are sequences of characters and whose numbers are integers.

The text is followed through both stages of reading at once: each token at its head moves the machine
by one step and leaves the rest of the text. A scalar has to be cut off where it ends, so it may only be
followed by a text that no number and no word goes on into; every mark of the language is such a text.

## Main definitions

* `StackEscape.Json.Token.Leads` — a text starts with a token.
* `StackEscape.Json.Machine.run?` — the state after a whole text.
* `StackEscape.Json.Value.Plain` — a value of characters and integers.

## Main results

* `StackEscape.Json.takeString_escapeOnto` — an escaped string is read back.
* `StackEscape.Json.number?_intOnto` — an integer is read back.
* `StackEscape.Json.Value.Plain.read?_compact` — the compact text of a plain value is read back.

## Implementation notes

The reader keeps what it has read of an open array or object in front of the value it awaits, so the
statements about items and fields are about any that came before.
-/

set_option autoImplicit false

namespace StackEscape.Json

/-! ## Strings -/

theorem hexUnit?_control : ∀ n < 0x20,
    hexUnit? '0' '0' (hexChar (n / 16)) (hexChar (n % 16)) = some n := by
  decide

/-- A short escape is taken for its character. -/
theorem takeString_short {c e : Char} (he : shortEscape? e = some c) (rest : List Char) :
    takeString ('\\' :: e :: rest) = (takeString rest).map fun x => (.char c :: x.1, x.2) := by
  rw [takeString]
  · rw [he]
    cases takeString rest <;> rfl
  · -- No short escape looks like a numeric one.
    rintro _ _ _ _ _ rfl
    exact fun _ => nomatch he

/-- A character that needs no escape is taken for itself. -/
theorem takeString_plain {c : Char} (hquote : c ≠ '"') (hbackslash : c ≠ '\\')
    (hcontrol : ¬ c.toNat < 0x20) (rest : List Char) :
    takeString (c :: rest) = (takeString rest).map fun x => (.char c :: x.1, x.2) := by
  rw [takeString]
  · simp [hcontrol, hbackslash]
  · exact hquote
  · rintro _ _ _ _ _ rfl
    exact absurd rfl hbackslash
  · rintro _ _ rfl
    exact absurd rfl hbackslash

/-- A unit below the surrogates spells a character of its own. -/
theorem assemble_unit {n : Nat} (h : n < 0xD800) (ps : List Piece) :
    assemble (.unit n :: ps) = (assemble ps).map (Char.ofNat n :: ·) := by
  have hhigh : isHighSurrogate n = false := decide_eq_false (by omega)
  have hlow : isLowSurrogate n = false := decide_eq_false (by omega)
  rw [assemble.eq_def]
  simp only [hhigh, hlow, Bool.false_eq_true, if_false]

/-- An escaped character is taken for one piece, and the piece spells the character. -/
theorem takeString_escape (c : Char) : ∃ p : Piece,
    (∀ rest, takeString (escape c ++ rest) = (takeString rest).map fun x => (p :: x.1, x.2)) ∧
    ∀ ps, assemble (p :: ps) = (assemble ps).map (c :: ·) := by
  have hshort {e : Char} (he : shortEscape? e = some c) : ∃ p : Piece,
      (∀ rest, takeString (['\\', e] ++ rest) = (takeString rest).map fun x => (p :: x.1, x.2)) ∧
      ∀ ps, assemble (p :: ps) = (assemble ps).map (c :: ·) :=
    ⟨.char c, takeString_short he, fun _ => rfl⟩
  unfold escape
  split_ifs with hquote hbackslash hnewline hreturn htab hbackspace hfeed hcontrol
  · subst hquote
    exact hshort rfl
  · subst hbackslash
    exact hshort rfl
  · exact hshort (hnewline ▸ rfl)
  · exact hshort (hreturn ▸ rfl)
  · exact hshort (htab ▸ rfl)
  · exact hshort (hbackspace ▸ rfl)
  · exact hshort (hfeed ▸ rfl)
  · refine ⟨.unit c.toNat, fun rest => ?_, fun ps => ?_⟩
    · simp only [List.cons_append, List.nil_append, takeString, hexUnit?_control _ hcontrol]
      cases takeString rest <;> rfl
    · rw [assemble_unit (by omega), Char.ofNat_toNat]
  · exact ⟨.char c, takeString_plain hquote hbackslash hcontrol, fun _ => rfl⟩

/-- An escaped string is taken up to its quote, and its pieces spell the string. -/
theorem takeString_escapeOnto (cs rest : List Char) : ∃ ps,
    takeString (escapeOnto cs ('"' :: rest)) = some (ps, rest) ∧ assemble ps = some cs := by
  induction cs with
  | nil => exact ⟨[], rfl, rfl⟩
  | cons c cs ih =>
    obtain ⟨p, hp, hc⟩ := takeString_escape c
    obtain ⟨ps, hps, hcs⟩ := ih
    refine ⟨p :: ps, ?_, ?_⟩
    · rw [escapeOnto, hp, hps]
      rfl
    · rw [hc, hcs]
      rfl

/-! ## Integers -/

theorem isDigit_eq (c : Char) : isDigit c = c.isDigit := by
  simp only [isDigit, Char.isDigit, Char.le_def, ge_iff_le, Bool.decide_and]

theorem ofDigits_eq (cs : List Char) : ofDigits cs = Nat.ofDigitChars 10 cs 0 := by
  simp only [ofDigits, Nat.ofDigitChars_eq_foldl, Nat.mul_comm]

theorem isDigit_of_mem_toDigits {n : Nat} {c : Char} (hc : c ∈ Nat.toDigits 10 n) :
    isDigit c = true := by
  rw [isDigit_eq]
  exact Nat.isDigit_of_mem_toDigits (by decide) (by decide) hc

/-- A positive number has no zero in front. -/
theorem head?_toDigits {n : Nat} (hn : 0 < n) : (Nat.toDigits 10 n).head? ≠ some '0' := by
  induction n using Nat.strongRecOn with
  | ind n ih =>
    rcases Nat.lt_or_ge n 10 with hlt | hge
    · rw [Nat.toDigits_of_lt_base hlt]
      simp only [List.head?_cons, ne_eq, Option.some.injEq, Nat.digitChar_eq_zero]
      omega
    · obtain ⟨c, cs, hcs⟩ := List.exists_cons_of_ne_nil
        (Nat.toDigits_ne_nil (n := n / 10) (b := 10))
      have hhead := ih (n / 10) (by omega) (by omega)
      rw [Nat.toDigits_of_base_le (by decide) hge, hcs, List.cons_append]
      rwa [hcs] at hhead

theorem isIntegerPart_of_head? {cs : List Char} (hne : cs ≠ []) (hhead : cs.head? ≠ some '0')
    (hall : cs.all isDigit = true) : isIntegerPart cs = true := by
  unfold isIntegerPart
  split <;> simp_all

theorem isIntegerPart_toDigits (n : Nat) : isIntegerPart (Nat.toDigits 10 n) = true := by
  rcases Nat.eq_zero_or_pos n with rfl | hn
  · rfl
  · exact isIntegerPart_of_head? Nat.toDigits_ne_nil (head?_toDigits hn)
      (List.all_eq_true.2 fun _ hc => isDigit_of_mem_toDigits hc)

/-- The literal of an integer is read as the integer. -/
theorem number?_intOnto (n : Int) : number? (intOnto n []) = some (.int n) := by
  have hall : ∀ c ∈ Nat.toDigits 10 n.natAbs, isDigit c = true :=
    fun _ hc => isDigit_of_mem_toDigits hc
  have htake : (Nat.toDigits 10 n.natAbs).takeWhile isDigit = Nat.toDigits 10 n.natAbs :=
    List.takeWhile_eq_self_iff.2 hall
  have hdrop : (Nat.toDigits 10 n.natAbs).dropWhile isDigit = [] :=
    List.dropWhile_eq_nil_iff.2 hall
  have hwhole := isIntegerPart_toDigits n.natAbs
  have hof : ofDigits (Nat.toDigits 10 n.natAbs) = n.natAbs := by
    rw [ofDigits_eq, Nat.ofDigitChars_ten_toDigits]
  have habs : (n.natAbs : Int) = if n < 0 then -n else n := by
    split_ifs <;> omega
  unfold intOnto
  split_ifs with hneg
  · -- Minus zero is never written.
    have hzero : Nat.toDigits 10 n.natAbs ≠ ['0'] := fun h =>
      head?_toDigits (by omega) (congrArg List.head? h)
    simp only [number?, List.append_nil, List.head?_cons, beq_self_eq_true, if_true,
      List.drop_succ_cons, List.drop_zero, htake, hdrop, hwhole, Bool.not_true, Bool.false_eq_true,
      if_false, List.isEmpty_nil, hzero, hof, habs, if_pos hneg, Int.neg_neg]
  · have hminus : (Nat.toDigits 10 n.natAbs).head? ≠ some '-' := fun h =>
      absurd (hall _ (List.mem_of_head? h)) (by decide)
    simp only [number?, List.append_nil, beq_eq_false_iff_ne.2 hminus, htake, hdrop, hwhole,
      Bool.not_true, Bool.false_eq_true, if_false, List.isEmpty_nil, if_true, hof, habs, if_neg hneg]

theorem intOnto_append (n : Int) (rest : List Char) : intOnto n rest = intOnto n [] ++ rest := by
  unfold intOnto
  split_ifs <;> simp

/-! ## Tokens -/

/-- No number and no word goes on into the text. -/
def Ends (rest : List Char) : Prop :=
  ∀ c ∈ rest.head?, isNumberChar c = false ∧ isWordChar c = false

theorem Ends.nil : Ends [] := by simp [Ends]

theorem Ends.cons {c : Char} (hnumber : isNumberChar c = false) (hword : isWordChar c = false)
    (rest : List Char) : Ends (c :: rest) := by
  simp [Ends, hnumber, hword]

theorem takeWhile_of_head? {p : Char → Bool} {rest : List Char}
    (h : ∀ c ∈ rest.head?, p c = false) :
    rest.takeWhile p = [] ∧ rest.dropWhile p = rest := by
  cases rest with
  | nil => exact ⟨rfl, rfl⟩
  | cons c cs => simp [h c (by simp)]

namespace Token

/-- The text starts with the token and goes on with the rest. -/
def Leads (t : Token) (cs rest : List Char) : Prop :=
  ofText? cs = (ofText? rest).map (t :: ·)

/-- A mark is a token. -/
theorem leads_mark {c : Char} {t : Token} (h : mark? c = some t) (rest : List Char) :
    t.Leads (c :: rest) rest := by
  have hblank : isBlank c = false := by
    unfold mark? at h
    split at h <;> simp_all [isBlank]
  rw [Leads, ofText?, hblank, h]
  rfl

/-- A string in quotes is a token. -/
theorem leads_quote (s : String) (rest : List Char) :
    (text (.whole s)).Leads ((Text.whole s).quoteOnto rest) rest := by
  obtain ⟨ps, hps, hcs⟩ := takeString_escapeOnto s.toList rest
  have hof : Text.ofPieces ps = .whole s := by
    simp only [Text.ofPieces, hcs, String.ofList_toList]
  have hblank : isBlank '"' = false := rfl
  have hmark : mark? '"' = none := rfl
  rw [Leads, Text.quoteOnto, ofText?, hblank, hmark]
  simp only [Text.whole?, Option.getD_some, Bool.false_eq_true, if_false, if_true]
  split
  · next h =>
    obtain ⟨rfl, rfl⟩ := Prod.mk.inj (Option.some.inj (hps.symm.trans h))
    rw [hof]
  · next h => simp [hps] at h

/-- A character of a number or a word starts no other token. -/
theorem starts_scalar {c : Char} (h : isNumberChar c = true ∨ isWordChar c = true) :
    isBlank c = false ∧ mark? c = none ∧ c ≠ '"' := by
  refine ⟨?_, ?_, ?_⟩
  · by_contra hblank
    simp only [isBlank, Bool.not_eq_false, Bool.or_eq_true, decide_eq_true_eq] at hblank
    rcases hblank with ((rfl | rfl) | rfl) | rfl <;> revert h <;> decide
  · unfold mark?
    split <;> first | rfl | (revert h; decide)
  · rintro rfl
    revert h
    decide

/-- A number is a token, if it does not go on into the rest. -/
theorem leads_number {c : Char} {ds rest : List Char} {v : Value}
    (hc : isDigit c = true ∨ c = '-') (hds : ∀ d ∈ ds, isNumberChar d = true) (hrest : Ends rest)
    (hv : number? (c :: ds) = some v) : (scalar v).Leads (c :: (ds ++ rest)) rest := by
  obtain ⟨htake, hdrop⟩ := takeWhile_of_head? fun c hc => (hrest c hc).1
  have hnumber : isNumberChar c = true := by
    rcases hc with hc | rfl
    · simp [isNumberChar, hc]
    · rfl
  obtain ⟨hblank, hmark, hquote⟩ := starts_scalar (.inl hnumber)
  rw [Leads, ofText?, hblank, hmark]
  simp [hquote, hc, List.takeWhile_append_of_pos hds, List.dropWhile_append_of_pos hds, htake,
    hdrop, hv]

/-- A word is a token, if it does not go on into the rest. -/
theorem leads_word {c : Char} {ds rest : List Char} {v : Value}
    (hc : isWordChar c = true) (hds : ds.all isWordChar = true) (hrest : Ends rest)
    (hv : word? (c :: ds) = some v) : (scalar v).Leads (c :: (ds ++ rest)) rest := by
  rw [List.all_eq_true] at hds
  obtain ⟨htake, hdrop⟩ := takeWhile_of_head? fun c hc => (hrest c hc).2
  obtain ⟨hblank, hmark, hquote⟩ := starts_scalar (.inr hc)
  have hnumber : ¬ (isDigit c = true ∨ c = '-') := by
    rintro (h | rfl)
    · simp only [isWordChar, isDigit, decide_eq_true_eq] at hc h
      exact absurd (Char.le_trans hc.1 h.2) (by decide)
    · exact absurd hc (by decide)
  rw [Leads, ofText?, hblank, hmark]
  simp [hquote, hc, hnumber, List.takeWhile_append_of_pos hds, List.dropWhile_append_of_pos hds,
    htake, hdrop, hv]

theorem leads_null {rest : List Char} (hrest : Ends rest) :
    (scalar .null).Leads (Value.scalarOnto .null rest) rest :=
  leads_word (c := 'n') rfl rfl hrest rfl

theorem leads_bool (b : Bool) {rest : List Char} (hrest : Ends rest) :
    (scalar (.bool b)).Leads (Value.scalarOnto (.bool b) rest) rest := by
  cases b with
  | true => exact leads_word (c := 't') rfl rfl hrest rfl
  | false => exact leads_word (c := 'f') rfl rfl hrest rfl

theorem leads_int (n : Int) {rest : List Char} (hrest : Ends rest) :
    (scalar (.int n)).Leads (Value.scalarOnto (.int n) rest) rest := by
  have hv := number?_intOnto n
  have hdigit : ∀ d ∈ Nat.toDigits 10 n.natAbs, isDigit d = true := fun _ hd =>
    isDigit_of_mem_toDigits hd
  have hnumber : ∀ d ∈ Nat.toDigits 10 n.natAbs, isNumberChar d = true := fun d hd => by
    simp [isNumberChar, hdigit d hd]
  rw [Value.scalarOnto, intOnto_append]
  unfold intOnto at hv ⊢
  rw [List.append_nil] at hv ⊢
  split_ifs at hv ⊢ with hneg
  · exact leads_number (.inr rfl) hnumber hrest hv
  · obtain ⟨c, cs, hcs⟩ := List.exists_cons_of_ne_nil
      (Nat.toDigits_ne_nil (n := n.natAbs) (b := 10))
    rw [hcs] at hv hdigit hnumber ⊢
    exact leads_number (.inl (hdigit c (List.mem_cons_self ..)))
      (fun d hd => hnumber d (List.mem_cons_of_mem _ hd)) hrest hv

end Token

/-! ## The machine -/

namespace Machine

/-- The state after a whole text. -/
def run? (m : Machine) (cs : List Char) : Option Machine :=
  (Token.ofText? cs).bind fun ts => ts.foldlM step m

theorem run?_nil (m : Machine) : m.run? [] = some m := by
  rw [run?, Token.ofText?]
  rfl

/-- The token that a text starts with is one step. -/
theorem run?_of_leads {m m' : Machine} {t : Token} {cs rest : List Char} (h : t.Leads cs rest)
    (hstep : m.step t = some m') : m.run? cs = m'.run? rest := by
  rw [run?, run?, h]
  cases Token.ofText? rest with
  | none => rfl
  | some ts => simp [hstep]

/-- The machine is ready for a value in the given containers. -/
def Awaits (m : Machine) (stack : List Frame) : Prop :=
  ∀ t, t ≠ .squareClose → m.step t = enter stack t

theorem awaits_value (stack : List Frame) : Awaits ⟨.value, stack⟩ stack := fun _ _ => rfl

theorem awaits_item (stack : List Frame) : Awaits ⟨.itemOrClose, stack⟩ (.items [] :: stack) := by
  intro t ht
  cases t <;> first | rfl | exact absurd rfl ht

end Machine

/-! ## Values -/

namespace Value

/-- Every string in the value is a sequence of characters, and every number an integer. -/
inductive Plain : Value → Prop where
  /-- The null value. -/
  | null : Plain null
  /-- A truth value. -/
  | bool (b : Bool) : Plain (bool b)
  /-- An integer. -/
  | int (n : Int) : Plain (int n)
  /-- A string. -/
  | string (s : String) : Plain (string s)
  /-- An array. -/
  | arr {items : List Value} (h : ∀ v ∈ items, Plain v) : Plain (arr items)
  /-- An object. -/
  | record {fields : List (String × Value)} (h : ∀ e ∈ fields, Plain e.2) : Plain (record fields)

/-- Where a value is awaited, the compact text of the value is taken for the value. -/
def Returns (v : Value) : Prop :=
  ∀ (m : Machine) (stack : List Frame) (rest : List Char), m.Awaits stack → Ends rest →
    m.run? (v.compactOnto rest) = Machine.run? ⟨.done v, stack⟩ rest

theorem ends_compactItems (items : List Value) (rest : List Char) :
    Ends (compactItems items (']' :: rest)) := by
  cases items <;> exact .cons rfl rfl _

theorem ends_compactFields (fields : List (Text × Value)) (rest : List Char) :
    Ends (compactFields fields ('\x7d' :: rest)) := by
  rcases fields with - | ⟨⟨k, v⟩, fs⟩ <;> exact .cons rfl rfl _

/-- Further items are taken up to the end of the array. -/
theorem run?_compactItems {items : List Value} (h : ∀ v ∈ items, v.Returns) (v : Value)
    (before : List Value) (stack : List Frame) (rest : List Char) :
    Machine.run? ⟨.done v, .items before :: stack⟩ (compactItems items (']' :: rest)) =
      Machine.run? ⟨.done (.arr (before.reverse ++ v :: items)), stack⟩ rest := by
  induction items generalizing v before with
  | nil =>
    rw [compactItems, Machine.run?_of_leads (Token.leads_mark rfl rest) rfl, List.reverse_cons]
  | cons w items ih =>
    rw [List.forall_mem_cons] at h
    rw [compactItems, Machine.run?_of_leads (Token.leads_mark rfl _) rfl,
      h.1 _ _ _ (Machine.awaits_value _) (ends_compactItems items rest), ih h.2 w,
      List.reverse_cons, List.append_assoc, List.singleton_append]

/-- Further fields are taken up to the end of the object. -/
theorem run?_compactFields {fields : List (String × Value)} (h : ∀ e ∈ fields, e.2.Returns)
    (key : Text) (v : Value) (before : List (Text × Value)) (stack : List Frame)
    (rest : List Char) :
    Machine.run? ⟨.done v, .fields before key :: stack⟩
        (compactFields (fields.map fun e => (.whole e.1, e.2)) ('\x7d' :: rest)) =
      Machine.run? ⟨.done (.obj (before.reverse ++
        (key, v) :: fields.map fun e => (.whole e.1, e.2))), stack⟩ rest := by
  induction fields generalizing key v before with
  | nil =>
    rw [List.map_nil, compactFields, Machine.run?_of_leads (Token.leads_mark rfl rest) rfl,
      List.reverse_cons]
  | cons e fields ih =>
    rw [List.forall_mem_cons] at h
    rw [List.map_cons, compactFields, Machine.run?_of_leads (Token.leads_mark rfl _) rfl,
      Machine.run?_of_leads (Token.leads_quote e.1 _) rfl,
      Machine.run?_of_leads (Token.leads_mark rfl _) rfl,
      h.1 _ _ _ (Machine.awaits_value _) (ends_compactFields _ rest), ih h.2, List.reverse_cons,
      List.append_assoc, List.singleton_append]

/-- The compact text of a plain value is taken for the value. -/
theorem Plain.returns {v : Value} (h : v.Plain) : v.Returns := by
  induction h with
  | null =>
    exact fun m stack rest hm hrest => Machine.run?_of_leads (Token.leads_null hrest) (hm _ nofun)
  | bool b =>
    exact fun m stack rest hm hrest => Machine.run?_of_leads (Token.leads_bool b hrest) (hm _ nofun)
  | int n =>
    exact fun m stack rest hm hrest => Machine.run?_of_leads (Token.leads_int n hrest) (hm _ nofun)
  | string s =>
    exact fun m stack rest hm _ => Machine.run?_of_leads (Token.leads_quote s rest) (hm _ nofun)
  | @arr items _ ih =>
    intro m stack rest hm _
    cases items with
    | nil =>
      rw [compactOnto, Machine.run?_of_leads (Token.leads_mark rfl _) (hm .squareOpen nofun),
        Machine.run?_of_leads (Token.leads_mark rfl _) rfl]
    | cons v items =>
      rw [List.forall_mem_cons] at ih
      rw [compactOnto, Machine.run?_of_leads (Token.leads_mark rfl _) (hm .squareOpen nofun),
        ih.1 _ _ _ (Machine.awaits_item stack) (ends_compactItems items rest),
        run?_compactItems ih.2]
      rfl
  | @record fields _ ih =>
    intro m stack rest hm _
    cases fields with
    | nil =>
      rw [Value.record, List.map_nil, compactOnto,
        Machine.run?_of_leads (Token.leads_mark rfl _) (hm .curlyOpen nofun),
        Machine.run?_of_leads (Token.leads_mark rfl _) rfl]
    | cons e fields =>
      rw [List.forall_mem_cons] at ih
      rw [Value.record, List.map_cons, compactOnto,
        Machine.run?_of_leads (Token.leads_mark rfl _) (hm .curlyOpen nofun),
        Machine.run?_of_leads (Token.leads_quote e.1 _) rfl,
        Machine.run?_of_leads (Token.leads_mark rfl _) rfl,
        ih.1 _ _ _ (Machine.awaits_value _) (ends_compactFields _ rest), run?_compactFields ih.2]
      rfl

theorem read?_eq (text : String) :
    read? text = (Machine.start.run? text.toList).bind Machine.result? := by
  rw [read?, Machine.run?, Option.bind_assoc]
  rfl

/-- **Reading undoes compact writing.** The compact text of a value of characters and integers is read
as the value.

**Proof sketch.** The machine starts where it awaits a value and takes the text for the value, by
induction on the value; nothing is left of the text, and nothing is left open. -/
theorem Plain.read?_compact {v : Value} (h : v.Plain) : read? v.compact = some v := by
  rw [read?_eq, compact, String.toList_ofList,
    h.returns Machine.start [] [] (Machine.awaits_value []) .nil, Machine.run?_nil]
  rfl

end Value

end StackEscape.Json
