import TapeMachine.Proofs.CharacterReads
import TapeMachine.Proofs.Passage

/-!
# Echoing a number

A short program reads a number from the console and writes it back.  What it reads is a text: digits
stand for their value and any other single character for its code, and both are kept as a byte.  So
the program writes back the value of a text of digits, of whatever length, modulo 256, and the
numeral of a byte as it came (`Interpreter.decimal_echo`).

* `Operation.numberOf_of_digits` : the number of a text of digits is the value that the standard
  library gives to it, `Nat.ofDigitChars`.
* `Echo.completesIn` : the program comes to its end for every text that has a number.
* `Echo.stopsAfter` : for a text that has none it stops where it reads.
-/

namespace TapeMachine

open Operation

/-! ### Digits among the first 128 characters -/

namespace Text

variable {c : Char}

/-- A property of the first 128 characters is checked by their codes. -/
theorem forall_ascii {P : Char → Prop} (h : ∀ n < 128, P (Char.ofNat n)) (hc : c.toNat < 128) :
    P c := by
  have hp := h c.toNat hc
  rwa [Char.ofNat_toNat] at hp

theorem isDigit_eq_of_ascii (hc : c.toNat < 128) : isDigit c = c.isDigit :=
  forall_ascii (P := fun c => isDigit c = c.isDigit) (by decide +kernel) hc

theorem isDigits_eq_of_ascii {s : List Char} (hs : ∀ c ∈ s, c.toNat < 128) :
    isDigits s = (!s.isEmpty && s.all Char.isDigit) := by
  have hall : s.all isDigit = s.all Char.isDigit := by
    induction s with
    | nil => rfl
    | cons c s ih =>
      rw [List.all_cons, List.all_cons, isDigit_eq_of_ascii (hs c List.mem_cons_self),
        ih fun d hd => hs d (List.mem_cons_of_mem c hd)]
  rw [isDigits, hall]

end Text

namespace Numeral

section

variable {c : Char} (hc : c.isDigit = true)
include hc

theorem toNat_of_isDigit : 48 ≤ c.toNat ∧ c.toNat ≤ 57 := Char.isDigit_iff_toNat.1 hc

theorem toNat_lt_of_isDigit : c.toNat < 128 := by
  have hbounds := toNat_of_isDigit hc
  omega

theorem digit_lt_of_isDigit : c.toNat - '0'.toNat < 10 := by
  have hbounds := toNat_of_isDigit hc
  change c.toNat - 48 < 10
  omega

theorem digitChar_of_isDigit : Nat.digitChar (c.toNat - '0'.toNat) = c := by
  apply Char.toNat_inj.1
  rw [Nat.toNat_digitChar_of_lt_ten (digit_lt_of_isDigit hc)]
  exact Nat.add_sub_of_le (toNat_of_isDigit hc).1

end

theorem value_eq_ofDigitChars (s : List Char) :
    value 10 (s.map fun c => c.toNat - '0'.toNat) = Nat.ofDigitChars 10 s 0 := by
  rw [value, List.foldl_map, Nat.ofDigitChars]

/-- A text of digits is read as its value. -/
theorem read_of_isDigit {s : List Char} (hne : s ≠ []) (hs : ∀ c ∈ s, c.isDigit = true)
    (hlen : s.length ≤ maxDigits) : read s = .ok (Nat.ofDigitChars 10 s 0 : Nat) := by
  -- The text is written with the digits that its characters stand for.
  have htext : (s.map fun c => c.toNat - '0'.toNat).map Nat.digitChar = s := by
    rw [List.map_map]
    refine (List.map_congr_left fun c hc => ?_).trans (List.map_id s)
    exact digitChar_of_isDigit (hs c hc)
  have hlt : ∀ d ∈ s.map fun c => c.toNat - '0'.toNat, d < 10 := by
    intro d hd
    obtain ⟨c, hc, rfl⟩ := List.mem_map.1 hd
    exact digit_lt_of_isDigit (hs c hc)
  have hread := read_of_digits hlt false (mt List.map_eq_nil_iff.1 hne)
    (by rw [List.length_map]; exact hlen)
  rw [htext, value_eq_ofDigitChars] at hread
  exact hread

end Numeral

namespace Operation

variable {s : String}

/-- The number of a text of digits is its value. -/
theorem numberOf_of_digits (hne : s ≠ "") (hs : ∀ c ∈ s.toList, c.isDigit = true)
    (hlen : s.length ≤ Numeral.maxDigits) :
    numberOf s = .ok (Nat.ofDigitChars 10 s.toList 0 : Nat) := by
  have hdigits : Text.isDigits s.toList = true := by
    rw [Text.isDigits_eq_of_ascii fun c hc => Numeral.toNat_lt_of_isDigit (hs c hc)]
    simpa using ⟨hne, hs⟩
  have hread := Numeral.read_of_isDigit (mt String.toList_eq_nil_iff.1 hne) hs
    (by rw [String.length_toList]; exact hlen)
  rw [numberOf, if_pos hdigits, numeralOf, hread]

/-- The number of any other text is the code of its only character. -/
theorem numberOf_of_other (hascii : ∀ c ∈ s.toList, c.toNat < 128)
    (hs : s = "" ∨ ∃ c ∈ s.toList, c.isDigit = false) :
    numberOf s = (codeOf s).map Int.ofNat := by
  have hdigits : Text.isDigits s.toList = false := by
    rw [Text.isDigits_eq_of_ascii hascii]
    obtain rfl | ⟨c, hc, hd⟩ := hs
    · rfl
    · rw [List.all_eq_false.2 ⟨c, hc, by rw [hd]; exact Bool.false_ne_true⟩, Bool.and_false]
  rw [numberOf, hdigits]
  rfl

end Operation

theorem Line.output_of_ask? {l rest : Line} {r : Reply} (h : l.ask? = some (r, rest)) :
    rest.output = l.output := by
  unfold ask? at h
  split at h <;> cases h <;> rfl

/-! ### The program -/

namespace Echo

open Observation Stage

/-- The program that reads a number into the second cell and writes it. -/
def program : String := "+=>?<-=>?"

theorem getElem?_program (k : Nat) :
    program.toList[k]? = ['+', '=', '>', '?', '<', '-', '=', '>', '?'][k]? := rfl

variable {i : Interpreter} {s : String} {rest : Line}

/-- What is to be seen where a number is read. -/
def asking (lines : Lines) : Observation := { counters lines [] 1 1 0 with mode := .int 1 }

theorem holds_asking (lines : Lines) : (asking lines).Holds 1 (.int (0 : Nat)) :=
  holds_second.withMode _

/-- To the operation that reads. -/
theorem leads_asking (i : Interpreter) :
    Leads program.toList 3 (initial i program) ⟨3, [], asking i.lines⟩ := by
  have hup : Leads program.toList 1 (initial i program) ⟨1, [], counters i.lines [] 0 1 0⟩ :=
    Leads.increment holds_first (getElem?_program 0) (Nat.zero_le _)
  have hmode : Leads program.toList 1 ⟨1, [], counters i.lines [] 0 1 0⟩
      ⟨2, [], { counters i.lines [] 0 1 0 with mode := .int 1 }⟩ :=
    Leads.setMode holds_first (getElem?_program 1)
  have hright : Leads program.toList 1 ⟨2, [], { counters i.lines [] 0 1 0 with mode := .int 1 }⟩
      ⟨3, [], asking i.lines⟩ :=
    Leads.advance (holds_first.withMode _) (getElem?_program 2)
  exact (hup.trans hmode).trans hright

/-- From behind the operation that reads to the one that writes. -/
theorem leads_writing (lines : Lines) (events : List Event) (k : Nat) :
    Leads program.toList 4 ⟨4, [], { counters lines events 1 1 k with mode := .int 1 }⟩
      ⟨8, [], counters lines events 1 0 k⟩ := by
  have hleft : Leads program.toList 1
      ⟨4, [], { counters lines events 1 1 k with mode := .int 1 }⟩
      ⟨5, [], { counters lines events 0 1 k with mode := .int 1 }⟩ :=
    Leads.retreat (holds_second.withMode _) (getElem?_program 4) Nat.one_ne_zero
  have hdown : Leads program.toList 1
      ⟨5, [], { counters lines events 0 1 k with mode := .int 1 }⟩
      ⟨6, [], { counters lines events 0 0 k with mode := .int 1 }⟩ :=
    Leads.decrement (holds_first.withMode _) (getElem?_program 5) Nat.one_ne_zero
  have hmode : Leads program.toList 1
      ⟨6, [], { counters lines events 0 0 k with mode := .int 1 }⟩
      ⟨7, [], counters lines events 0 0 k⟩ :=
    Leads.setMode (holds_first.withMode _) (getElem?_program 6)
  have hright : Leads program.toList 1 ⟨7, [], counters lines events 0 0 k⟩
      ⟨8, [], counters lines events 1 0 k⟩ :=
    Leads.advance holds_first (getElem?_program 7)
  exact ((hleft.trans hdown).trans hmode).trans hright

/-- The effect of the operation that reads. -/
theorem effect_asking (hask : i.lines.console.ask? = some (.text s, rest)) :
    Mode.consoleDecimalRead.effect
      (situation ⟨3, [], asking i.lines⟩ program.toList (.int (0 : Nat))) =
      ({ buffer := []
         lines := i.lines.set .console rest
         entries := [.note (.reading (some s)), .event (.read .console (.text s))] } : Effect).ending
        (((numberOf s).map toByte).map some) :=
  Situation.read_text (situation ⟨3, [], asking i.lines⟩ _ _) .console hask _ _

/-- A text with a number is echoed as a byte. -/
theorem completesIn {n : Nat} (hask : i.lines.console.ask? = some (.text s, rest))
    (hwriter : i.lines.console.output = true) (hn : numberOf s = .ok (n : Int)) :
    i.CompletesIn program 9 (counters (i.lines.set .console rest)
      [.read .console (.text s), .wrote .console (toString (n % 256))] 1 0 (n % 256)) := by
  have heffect := effect_asking hask
  rw [hn] at heffect
  have hread := Leads.operate (l := []) (m := .consoleDecimalRead) (holds_asking i.lines)
    (getElem?_program 3) rfl (by rw [heffect]; rfl) (by rw [heffect]; rfl)
  rw [heffect] at hread
  have hsecond : (counters (i.lines.set .console rest) [.read .console (.text s)] 1 0
      (n % 256)).Holds 1 (.int (n % 256 : Nat)) := holds_second
  have hwrite := Leads.writeNumber (l := []) hsecond (getElem?_program 8) rfl
    ((Line.output_of_ask? hask).trans hwriter)
  have hall := (((leads_asking i).trans hread).trans
    (leads_writing (i.lines.set .console rest) [.read .console (.text s)] (n % 256))).trans hwrite
  exact hall.completesIn rfl

/-- At a text without a number the program stops. -/
theorem stopsAfter {f : Fault} (hask : i.lines.console.ask? = some (.text s, rest))
    (hf : numberOf s = .error f) :
    ∃ x, i.StopsAfter program 3 f x ∧ x.events = [.read .console (.text s)] := by
  have heffect := effect_asking hask
  rw [hf] at heffect
  have hstop := (leads_asking i).stopsAfter (m := .consoleDecimalRead) (holds_asking i.lines)
    (getElem?_program 3) rfl (by rw [heffect]; rfl) (by rw [heffect]; rfl)
  rw [heffect] at hstop
  exact ⟨_, hstop, rfl⟩

end Echo

namespace Interpreter

/-- The program that echoes comes to its end and has read the text `s` and written `t`. -/
def Echoes (i : Interpreter) (s t : String) : Prop :=
  ∃ x, i.CompletesIn Echo.program 9 x ∧
    x.events = [.read .console (.text s), .wrote .console t]

/-- **A number is echoed.**  Let a writer and a reader be attached to the console, and let the reader
give a text of at most 4300 characters, all of them among the first 128.

* A text of digits, one or more, is echoed as the numeral of its value modulo 256.
* A single character that is no digit is echoed as the numeral of its code.
* At any other text the run stops where it reads, after three steps, because the text is not one
  character, and nothing is written.

So the numeral of a number below 256 is echoed as it is. -/
theorem decimal_echo (i : Interpreter) {s : String} (hreader : i.lines.console.Gives s)
    (hwriter : i.lines.console.output = true) (hascii : ∀ c ∈ s.toList, c.toNat < 128)
    (hlen : s.length ≤ 4300) :
    (s ≠ "" → (∀ c ∈ s.toList, c.isDigit = true) →
      i.Echoes s (toString (Nat.ofDigitChars 10 s.toList 0 % 256))) ∧
    (∀ c, s = String.singleton c → c.isDigit = false → i.Echoes s (toString c.toNat)) ∧
    ((s = "" ∨ ∃ c ∈ s.toList, c.isDigit = false) → s.length ≠ 1 →
      ∃ x, i.StopsAfter Echo.program 3 (.notOneCharacter s.length) x ∧
        x.events = [.read .console (.text s)]) ∧
    ∀ n < 256, s = toString n → i.Echoes s s := by
  obtain ⟨rest, hask⟩ := hreader
  have hdigits (hne : s ≠ "") (hs : ∀ c ∈ s.toList, c.isDigit = true) :
      i.Echoes s (toString (Nat.ofDigitChars 10 s.toList 0 % 256)) :=
    ⟨_, Echo.completesIn hask hwriter (numberOf_of_digits hne hs hlen), rfl⟩
  refine ⟨hdigits, ?_, ?_, ?_⟩
  · rintro c rfl hc
    have hmem : c ∈ (String.singleton c).toList := by simp
    have hnumber : numberOf (String.singleton c) = .ok (c.toNat : Int) := by
      rw [numberOf_of_other hascii (.inr ⟨c, hmem, hc⟩), codeOf_singleton]
      rfl
    have hsmall : c.toNat % 256 = c.toNat :=
      Nat.mod_eq_of_lt (Nat.lt_trans (hascii c hmem) (by decide))
    have hrun := Echo.completesIn hask hwriter hnumber
    rw [hsmall] at hrun
    exact ⟨_, hrun, rfl⟩
  · intro hs hone
    refine Echo.stopsAfter hask ?_
    rw [numberOf_of_other hascii hs, codeOf_of_length_ne (by rw [String.length_toList]; exact hone),
      String.length_toList]
    rfl
  · rintro n hn rfl
    have htext : (toString n).toList = Nat.toDigits 10 n := by
      rw [Nat.toString_eq_ofList_toDigits, String.toList_ofList]
    have hne : toString n ≠ "" := by
      intro h
      rw [h] at htext
      exact Nat.toDigits_ne_nil htext.symm
    have hecho := hdigits hne fun c hc =>
      Nat.isDigit_of_mem_toDigits (by decide) (by decide) (htext ▸ hc)
    rwa [htext, Nat.ofDigitChars_ten_toDigits, Nat.mod_eq_of_lt hn] at hecho

/-- Zeros in front and what is beyond a byte are lost on the way. -/
theorem decimal_echo_long :
    let console : Line := { input := some [.text "00300"], output := true }
    let i : Interpreter := { lines := { console } }
    i.lines.console.Gives "00300" ∧ i.lines.console.output = true ∧
      (∀ c ∈ "00300".toList, c.toNat < 128) ∧ "00300".length ≤ 4300 ∧ i.Echoes "00300" "44" := by
  intro console i
  have hgives : i.lines.console.Gives "00300" := ⟨_, rfl⟩
  have hascii : ∀ c ∈ "00300".toList, c.toNat < 128 := by simp
  have hdigits : ∀ c ∈ "00300".toList, c.isDigit = true := List.all_eq_true.1 (by decide)
  have hlen : "00300".length ≤ 4300 := by decide
  exact ⟨hgives, rfl, hascii, hlen, (decimal_echo i hgives rfl hascii hlen).1 (by decide) hdigits⟩

end Interpreter

end TapeMachine
