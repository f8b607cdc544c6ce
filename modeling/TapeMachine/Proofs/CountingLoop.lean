import TapeMachine.Proofs.Passage

/-!
# Counting loops

A program that counts up to a number and then repeats a loop that counts down again passes the loop
once for each unit and skips it at last.  Counting up ends at the largest byte, so a number beyond
it counts as that.  Two such loops are followed through here: one that adds a number to the second
cell in each round and so multiplies, and one that writes the count in each round
(`Interpreter.counting_loops`).
-/

namespace TapeMachine

namespace Counting

open Observation Stage

/-- A text of `n` operators that count up. -/
def pluses (n : Nat) : String := String.ofList (List.replicate n '+')

/-- A program that counts up to `a` and then repeats a loop. -/
structure IsCounted (program : String) (a : Nat) (body : List Operator) : Prop where
  text_eq : program.toList = List.replicate a '+' ++ '[' :: (body.map Operator.symbol ++ [']'])
  straight : ∀ o ∈ body, o.isBracket = false

namespace IsCounted

variable {program : String} {a : Nat} {body : List Operator}

theorem prefix_drop (h : IsCounted program a body) :
    '[' :: (body.map Operator.symbol ++ [']']) <+: program.toList.drop a := by
  have hdrop : program.toList.drop a = '[' :: (body.map Operator.symbol ++ [']']) := by
    rw [h.text_eq, List.drop_left' List.length_replicate]
  exact hdrop ▸ List.prefix_rfl

theorem body_prefix_drop (h : IsCounted program a body) :
    body.map Operator.symbol <+: program.toList.drop (a + 1) :=
  (List.prefix_append _ _).trans (prefix_drop_add_length (l := ['[']) h.prefix_drop)

/-- The loop is passed as often as the count says, and once more to skip it. -/
theorem completesIn (h : IsCounted program a body) {i : Interpreter} {x : Nat → Observation}
    (hstart : x (min a 255) = counters i.lines [] 0 (min a 255) 0)
    (hcell : ∀ n, (x n).Holds 0 (.int n))
    (hround : ∀ n < min a 255, Leads program.toList body.length ⟨a + 1, [(a : Int)], x (n + 1)⟩
      ⟨a + 1 + body.length, [(a : Int)], x n⟩) :
    i.CompletesIn program (a + (min a 255 + 1) * (body.length + 2)) (x 0) := by
  have hup : Leads program.toList a (initial i program) ⟨a, [], x (min a 255)⟩ := by
    have htext : List.replicate a '+' <+: program.toList.drop 0 := by
      rw [h.text_eq]
      exact List.prefix_append _ _
    have hzero : (counters i.lines [] 0 0 0).Holds 0 (.int (0 : Nat)) := holds_first
    have hall := Leads.increments (l := []) hzero htext (Nat.zero_le _)
    rw [Nat.zero_add, Nat.min_comm] at hall
    rw [initial_eq, hstart]
    exact hall
  have hloop := Leads.loop (l := []) h.straight h.prefix_drop (x := x) (m := min a 255) (by omega)
    (fun n _ => ⟨0, hcell n⟩) hround
  refine (hup.trans hloop).completesIn ?_
  rw [h.text_eq]
  simp only [List.length_append, List.length_replicate, List.length_cons, List.length_map,
    List.length_nil]

end IsCounted

/-! ### Multiplying -/

/-- The operators of the loop that adds `b` to the second cell. -/
def adding (b : Nat) : List Operator :=
  .decrement :: .advance :: (List.replicate b .increment ++ [.retreat])

theorem length_adding (b : Nat) : (adding b).length = b + 3 := by
  simp only [adding, List.length_cons, List.length_append, List.length_replicate, List.length_nil]

theorem isCounted_adding (a b : Nat) :
    IsCounted (pluses a ++ "[->" ++ pluses b ++ "<]") a (adding b) where
  text_eq := by
    simp [pluses, adding, Operator.symbol]
  straight := by
    intro o ho
    simp only [adding, List.mem_cons, List.mem_append, List.mem_replicate, List.not_mem_nil] at ho
    rcases ho with rfl | rfl | ⟨-, rfl⟩ | rfl | ⟨⟨⟩⟩ <;> rfl

/-- One round of adding. -/
theorem adding_leads (lines : Lines) (events : List Event) {program : List Char} {e b n k : Nat}
    {l : List Int}
    (htext : (adding b).map Operator.symbol <+: program.drop e) (hk : k ≤ 255) :
    Leads program (adding b).length ⟨e, l, counters lines events 0 (n + 1) k⟩
      ⟨e + (adding b).length, l, counters lines events 0 n (min 255 (k + b))⟩ := by
  have hdown : Leads program 1 ⟨e, l, counters lines events 0 (n + 1) k⟩
      ⟨e + 1, l, counters lines events 0 n k⟩ :=
    Leads.decrement holds_first (getElem?_of_prefix_drop htext) (Nat.succ_ne_zero n)
  have htext₁ := prefix_drop_add_length (l := ['-']) htext
  have hright : Leads program 1 ⟨e + 1, l, counters lines events 0 n k⟩
      ⟨e + 2, l, counters lines events 1 n k⟩ :=
    Leads.advance holds_first (getElem?_of_prefix_drop htext₁)
  have htext₂ := prefix_drop_add_length (l := ['>']) htext₁
  rw [List.map_append, List.map_replicate] at htext₂
  have hsecond : (counters lines events 1 n k).Holds 1 (.int k) := holds_second
  have hup := Leads.increments (l := l) hsecond ((List.prefix_append _ _).trans htext₂) hk
  have htext₃ := prefix_drop_add_length htext₂
  rw [List.length_replicate] at htext₃
  have hleft : Leads program 1
      ⟨e + 2 + b, l, counters lines events 1 n (min 255 (k + b))⟩
      ⟨e + 2 + b + 1, l, counters lines events 0 n (min 255 (k + b))⟩ :=
    Leads.retreat holds_second (getElem?_of_prefix_drop htext₃) Nat.one_ne_zero
  have hall := ((hdown.trans hright).trans hup).trans hleft
  rw [length_adding, show e + (b + 3) = e + 2 + b + 1 by omega, show b + 3 = 1 + 1 + b + 1 by omega]
  exact hall

/-! ### Writing the count -/

/-- The operators of the loop that writes the count. -/
def writing : List Operator := [.operate, .decrement]

theorem isCounted_writing (a : Nat) : IsCounted (pluses a ++ "[?-]") a writing where
  text_eq := by
    simp [pluses, writing, Operator.symbol]
  straight := by
    intro o ho
    simp only [writing, List.mem_cons, List.not_mem_nil] at ho
    rcases ho with rfl | rfl | ⟨⟨⟩⟩ <;> rfl

/-- One round of writing. -/
theorem writing_leads {lines : Lines} (events : List Event) {program : List Char} {e n : Nat}
    {l : List Int} (htext : writing.map Operator.symbol <+: program.drop e)
    (ho : lines.console.output = true) :
    Leads program writing.length ⟨e, l, counters lines events 0 (n + 1) 0⟩ ⟨e + writing.length, l,
      counters lines (events ++ [.wrote .console (toString (n + 1))]) 0 n 0⟩ := by
  have hwrite : Leads program 1 ⟨e, l, counters lines events 0 (n + 1) 0⟩ ⟨e + 1, l,
      counters lines (events ++ [.wrote .console (toString (n + 1))]) 0 (n + 1) 0⟩ :=
    Leads.writeNumber holds_first (getElem?_of_prefix_drop htext) rfl ho
  exact hwrite.trans (Leads.decrement holds_first
    (getElem?_of_prefix_drop (prefix_drop_add_length (l := ['?']) htext)) (Nat.succ_ne_zero n))

/-- The events of a count from `m` down that has come to `n`. -/
def written (m n : Nat) : List Event :=
  (List.range (m - n)).map fun k => .wrote .console (toString (m - k))

theorem written_of_lt {m n : Nat} (h : n < m) :
    written m n = written m (n + 1) ++ [.wrote .console (toString (n + 1))] := by
  obtain ⟨d, rfl⟩ : ∃ d, m = n + 1 + d := ⟨m - n - 1, by omega⟩
  rw [written, written, Nat.add_sub_cancel_left, show n + 1 + d - n = d + 1 by omega,
    List.range_succ, List.map_append, List.map_singleton, Nat.add_sub_cancel]

end Counting

namespace Interpreter

open Counting Observation

/-- **Loops that count.**  For all numbers `a` and `b`, let `m` be `a`, or the largest byte if `a` is
larger.

* The program that counts up to `a` and then moves `b` into the second cell for each unit comes to
  its end in exactly `a + (m + 1) * (b + 5)` steps, each with its frame.  The first cell is then
  zero, the second one `m * b`, or the largest byte if that is larger, and nothing else has changed.
* If a writer is attached to the console, the program that counts up to `a` and then writes the count
  in each round comes to its end in exactly `a + 4 * (m + 1)` steps.  It has written the numerals of
  `m`, `m - 1` and so on down to `1`, in this order, and nothing else has changed. -/
theorem counting_loops (i : Interpreter) (a b : Nat) :
    let m := min a 255
    i.CompletesIn (pluses a ++ "[->" ++ pluses b ++ "<]") (a + (m + 1) * (b + 5))
      (counters i.lines [] 0 0 (min 255 (m * b))) ∧
    (i.lines.console.output = true →
      i.CompletesIn (pluses a ++ "[?-]") (a + 4 * (m + 1))
        (counters i.lines
          ((List.range m).map fun k => .wrote .console (toString (m - k))) 0 0 0)) := by
  intro m
  constructor
  · have hcounted := isCounted_adding a b
    have hrun := hcounted.completesIn (i := i)
      (x := fun n => counters i.lines [] 0 n (min 255 ((m - n) * b)))
      (by rw [Nat.sub_self, Nat.zero_mul]; rfl) (fun n => holds_first) fun n hn => by
        have hround := adding_leads i.lines [] (l := [(a : Int)]) (n := n)
          hcounted.body_prefix_drop (Nat.min_le_left 255 ((m - (n + 1)) * b))
        have hsum : min 255 (min 255 ((m - (n + 1)) * b) + b) = min 255 ((m - n) * b) := by
          rw [show m - n = m - (n + 1) + 1 by omega, Nat.succ_mul]
          omega
        rwa [hsum] at hround
    rwa [length_adding] at hrun
  · intro ho
    have hcounted := isCounted_writing a
    have hrun := hcounted.completesIn (i := i)
      (x := fun n => counters i.lines (written m n) 0 n 0)
      (by rw [written, Nat.sub_self]; rfl) (fun n => holds_first) fun n hn => by
        have hround := writing_leads (written m (n + 1)) (l := [(a : Int)]) (n := n)
          hcounted.body_prefix_drop ho
        rwa [← written_of_lt hn] at hround
    rwa [Nat.mul_comm 4]

/-- Six times eight is forty-eight, in ninety-seven steps, and a count from three. -/
theorem counting_loops_small :
    let i : Interpreter := { lines := { console := { output := true } } }
    i.lines.console.output = true ∧
      i.CompletesIn "++++++[->++++++++<]" 97 (counters i.lines [] 0 0 48) ∧
      i.CompletesIn "+++[?-]" 19 (counters i.lines
        [.wrote .console "3", .wrote .console "2", .wrote .console "1"] 0 0 0) := by
  intro i
  exact ⟨rfl, (counting_loops i 6 8).1, (counting_loops i 3 0).2 rfl⟩

end Interpreter

end TapeMachine
