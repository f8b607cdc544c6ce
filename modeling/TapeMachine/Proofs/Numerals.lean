import TapeMachine.Cell

/-!
# Numerals are read back

A decimal numeral, with zeros in front or not, is read as the number that its digits stand for, as
long as it has no more digits than a numeral may have (`Numeral.read_of_digits`).
-/

namespace TapeMachine

theorem Text.trim_of_forall_eq_false {p : Char → Bool} {s : List Char}
    (h : ∀ c ∈ s, p c = false) : trim p s = s := by
  have hdrop : ∀ t : List Char, (∀ c ∈ t, p c = false) → t.dropWhile p = t := by
    intro t ht
    cases t with
    | nil => rfl
    | cons c t =>
      refine List.dropWhile_cons_of_neg ?_
      rw [ht c List.mem_cons_self]
      exact Bool.false_ne_true
  rw [trim, hdrop s h, hdrop s.reverse fun c hc => h c (List.mem_reverse.1 hc), List.reverse_reverse]

namespace Numeral

/-! ### Digits -/

theorem digits_lt {b : Nat} (hb : 2 ≤ b) (n : Nat) : ∀ d ∈ digits b n, d < b := by
  fun_induction digits b n with
  | case1 n h =>
    intro d hd
    obtain rfl := List.mem_singleton.1 hd
    omega
  | case2 n h ih =>
    intro d hd
    rcases List.mem_append.1 hd with hd | hd
    · exact ih d hd
    · obtain rfl := List.mem_singleton.1 hd
      exact Nat.mod_lt n (by omega)

theorem digits_of_lt {b n : Nat} (h : n < b) : digits b n = [n] := by
  rw [digits, if_pos (.inr h)]

theorem digits_of_le {b n : Nat} (hb : 2 ≤ b) (h : b ≤ n) :
    digits b n = digits b (n / b) ++ [n % b] := by
  rw [digits, if_neg (by omega)]

/-- The numeral in a base is the one of the standard library. -/
theorem ofNat_eq_toDigits {b : Nat} (hb : 1 < b) (n : Nat) : ofNat b n = Nat.toDigits b n := by
  unfold ofNat
  fun_induction digits b n with
  | case1 n h =>
    rw [Nat.toDigits_of_lt_base (by omega)]
    rfl
  | case2 n h ih =>
    rw [List.map_append, ih, Nat.toDigits_eq_if (n := n) hb, if_neg (by omega)]
    rfl

theorem decimal_natCast (n : Nat) : decimal n = Nat.toDigits 10 n := by
  rw [decimal, if_neg (by omega), Int.natAbs_natCast, ofNat_eq_toDigits (by decide)]

/-- Zeros in front do not count. -/
theorem value_replicate_append (b k : Nat) (ds : List Nat) :
    value b (List.replicate k 0 ++ ds) = value b ds := by
  induction k with
  | zero => rfl
  | succ k ih =>
    rw [List.replicate_succ, List.cons_append, ← ih]
    rfl

/-! ### Reading digits -/

section Reading

variable {ds : List Nat}

theorem decimalValue?_digitChar {d : Nat} (hd : d < 10) :
    Text.decimalValue? (Nat.digitChar d) = some d := by
  have hall : ∀ k < 10, Text.decimalValue? (Nat.digitChar k) = some k := by decide
  exact hall d hd

theorem isNumeralBlank_digitChar {d : Nat} (hd : d < 10) :
    Text.isNumeralBlank (Nat.digitChar d) = false := by
  have hall : ∀ k < 10, Text.isNumeralBlank (Nat.digitChar k) = false := by decide
  exact hall d hd

/-- The marks that separate or precede numerals. -/
def marks : List Char := ['+', '-', '_', ':', ' ', '\n']

theorem digitChar_ne_of_mem_marks {d : Nat} (hd : d < 10) {c : Char} (hc : c ∈ marks) :
    Nat.digitChar d ≠ c := by
  have hall : ∀ k < 10, Nat.digitChar k ∉ marks := by decide
  rintro rfl
  exact hall d hd hc

variable (hlt : ∀ d ∈ ds, d < 10)
include hlt

theorem filterMap_digitChar : (ds.map Nat.digitChar).filterMap Text.decimalValue? = ds := by
  induction ds with
  | nil => rfl
  | cons d ds ih =>
    have hd := decimalValue?_digitChar (hlt d List.mem_cons_self)
    rw [List.map_cons, List.filterMap_cons_some hd, ih fun e he => hlt e (List.mem_cons_of_mem d he)]

theorem takeWhile_digitChar :
    ((ds.map Nat.digitChar).takeWhile fun c => Text.isDecimal c || c == '_') =
      ds.map Nat.digitChar := by
  have hall : ∀ c ∈ ds.map Nat.digitChar, (Text.isDecimal c || c == '_') = true := by
    intro c hc
    obtain ⟨d, hd, rfl⟩ := List.mem_map.1 hc
    rw [Text.isDecimal, decimalValue?_digitChar (hlt d hd)]
    rfl
  rw [← List.append_nil (ds.map Nat.digitChar), List.takeWhile_append_of_pos hall, List.takeWhile_nil]

theorem wellSpaced_digitChar (hne : ds ≠ []) (afterDigit : Bool) :
    wellSpaced afterDigit (ds.map Nat.digitChar) = true := by
  induction ds generalizing afterDigit with
  | nil => exact absurd rfl hne
  | cons d ds ih =>
    have hd : Nat.digitChar d ≠ '_' :=
      digitChar_ne_of_mem_marks (hlt d List.mem_cons_self) (by decide)
    rw [List.map_cons, wellSpaced, if_neg hd]
    cases ds with
    | nil => rfl
    | cons e ds =>
      exact ih (fun x hx => hlt x (List.mem_cons_of_mem d hx)) (List.cons_ne_nil e ds) true

theorem splitSign_digitChar : splitSign (ds.map Nat.digitChar) = (false, ds.map Nat.digitChar) := by
  cases ds with
  | nil => rfl
  | cons d ds =>
    have hd : d < 10 := hlt d List.mem_cons_self
    rw [List.map_cons]
    unfold splitSign
    split
    · rename_i h
      exact absurd (List.cons.inj h).1 (digitChar_ne_of_mem_marks hd (by decide))
    · rename_i h
      exact absurd (List.cons.inj h).1 (digitChar_ne_of_mem_marks hd (by decide))
    · rfl

/-- **A numeral is read as the number that its digits stand for**, with a minus sign in front of it
or without. -/
theorem read_of_digits (negative : Bool) (hne : ds ≠ []) (hlen : ds.length ≤ maxDigits) :
    read ((if negative then ['-'] else []) ++ ds.map Nat.digitChar) =
      .ok (if negative then -(value 10 ds : Int) else (value 10 ds : Int)) := by
  have hsign : splitSign (Text.trim Text.isNumeralBlank
      ((if negative then ['-'] else []) ++ ds.map Nat.digitChar)) =
        (negative, ds.map Nat.digitChar) := by
    rw [Text.trim_of_forall_eq_false]
    · cases negative with
      | false => exact splitSign_digitChar hlt
      | true => rfl
    · intro c hc
      rcases List.mem_append.1 hc with hc | hc
      · cases negative with
        | false => cases hc
        | true =>
          obtain rfl := List.mem_singleton.1 hc
          decide
      · obtain ⟨d, hd, rfl⟩ := List.mem_map.1 hc
        exact isNumeralBlank_digitChar (hlt d hd)
  simp only [read, hsign, takeWhile_digitChar hlt, wellSpaced_digitChar hlt hne,
    filterMap_digitChar hlt, Nat.not_lt.2 hlen]
  cases negative <;> simp

end Reading

end Numeral

theorem Cell.text_natCast (n : Nat) : (Cell.int n).text = toString n := by
  rw [text, Numeral.decimal_natCast, Nat.toString_eq_ofList_toDigits]

end TapeMachine
