import TapeMachine.Proofs.LoopStack

/-!
# Structured code

A text of operators whose brackets balance is the text of exactly one tree of operators and loops
(`Code.exists_text_eq`, `Code.text_injective`).  `Code.eval` evaluates such a tree: operators are
carried out one after another, and the body of a loop is repeated while the current cell is not
zero.  There is no stack of loops here, nothing is skipped operator by operator, and the position is
only told to the operators.

A loop may go on for ever, so an evaluation is given a bound on the number of times that a loop is
repeated each time it is entered.
-/

namespace TapeMachine

open Brackets

/-- The operators other than brackets. -/
abbrev Primitive := { o : Operator // o.isBracket = false }

/-- A program as a tree. -/
inductive Code where
  /-- Nothing is left to do. -/
  | done
  /-- An operator, and what follows it. -/
  | op (o : Primitive) (rest : Code)
  /-- A loop, and what follows it. -/
  | loop (body rest : Code)
deriving DecidableEq

namespace Code

/-- The text of a tree. -/
def text : Code → List Char
  | done => []
  | op o rest => o.1.symbol :: rest.text
  | loop body rest => '[' :: (body.text ++ ']' :: rest.text)

theorem add_length_op (i : Nat) (o : Primitive) (rest : Code) :
    i + (op o rest).text.length = i + 1 + rest.text.length := by
  rw [text, List.length_cons]
  omega

theorem add_length_loop (i : Nat) (body rest : Code) :
    i + (loop body rest).text.length = i + body.text.length + 2 + rest.text.length := by
  simp only [text, List.length_cons, List.length_append]
  omega

end Code

/-! ### Evaluation -/

/-- What follows on a part of a program that has come to its end. -/
def Verdict.andThen (r : Verdict) (k : World → Verdict) : Verdict :=
  match r with
  | .finished w => k w
  | .stopped f w => .stopped f w
  | .unfinished w => .unfinished w

namespace World

/-- The world with its machine put at a position. -/
def atPosition (w : World) (i : Nat) : World :=
  w.withState { w.machine.toState with position := i }

/-- Goes on if the pointer stands on the tape, and fails if it stands behind it. -/
def onTape (k : World → Verdict) (w : World) : Verdict :=
  if w.machine.pointer = State.tapeLength then .stopped (.noCell .outside) w else k w

/-- The current cell holds the number zero. -/
def atZero (w : World) : Bool :=
  match w.machine.cell with
  | .ok c => decide (c = Cell.zero)
  | .error _ => false

end World

open World

/-- Carries out an operator that stands at position `i`. -/
def Operator.performAt (o : Operator) (i : Nat) (w : World) : Verdict :=
  match o.perform.on (w.atPosition i) with
  | (.ok _, w') => .finished w'
  | (.error f, w') => .stopped f w'

namespace Code

/-- Repeats the body of a loop while the current cell is not zero, at most `n` times. -/
def repeatWhile (body : World → Verdict) : Nat → World → Verdict
  | 0 => onTape fun w => if w.atZero then .finished w else .unfinished w
  | n + 1 => onTape fun w =>
    if w.atZero then .finished w else (body w).andThen (onTape (repeatWhile body n))

/-- Evaluates a tree whose text stands at position `i`; each time a loop is entered, it is repeated
at most `n` times. -/
def eval (n : Nat) : Code → Nat → World → Verdict
  | done, _, w => .finished w
  | op o rest, i, w => (onTape (o.1.performAt i) w).andThen (rest.eval n (i + 1))
  | loop body rest, i, w =>
    (repeatWhile (body.eval n (i + 1)) n w).andThen (rest.eval n (i + body.text.length + 2))

/-! ### Reading a text as a tree -/

theorem count_text (t : Code) : t.text.count '[' = t.text.count ']' := by
  induction t with
  | done => rfl
  | op o rest ih =>
    obtain ⟨ho, hc⟩ := Operator.symbol_ne_of_not_isBracket o.2
    rw [text, List.count_cons_of_ne ho, List.count_cons_of_ne hc, ih]
  | loop body rest ihb ihr =>
    rw [text, List.count_cons_self, List.count_cons_of_ne (by decide), List.count_append,
      List.count_append, List.count_cons_of_ne (by decide), List.count_cons_self, ihb, ihr]
    omega

/-- The rest of a text at which a tree ends. -/
def IsEnd (r : List Char) : Prop := ∀ c ∈ r.head?, c = ']'

theorem text_append_inj {t u : Code} {r s : List Char} (hr : IsEnd r) (hs : IsEnd s)
    (h : t.text ++ r = u.text ++ s) : t = u ∧ r = s := by
  induction t generalizing u r s with
  | done =>
    cases u with
    | done => exact ⟨rfl, h⟩
    | op o rest =>
      have := hr o.1.symbol (by rw [show r = _ from h]; rfl)
      exact absurd this (Operator.symbol_ne_of_not_isBracket o.2).2
    | loop body rest =>
      have := hr '[' (by rw [show r = _ from h]; rfl)
      exact absurd this (by decide)
  | op o rest ih =>
    cases u with
    | done =>
      have := hs o.1.symbol (by rw [show s = _ from h.symm]; rfl)
      exact absurd this (Operator.symbol_ne_of_not_isBracket o.2).2
    | op p rest' =>
      obtain ⟨hsym, htail⟩ := List.cons.inj h
      have hop : o = p := by
        have := congrArg Operator.ofSymbol? hsym
        rw [Operator.ofSymbol?_symbol, Operator.ofSymbol?_symbol] at this
        exact Subtype.ext (Option.some.inj this)
      obtain ⟨rfl, rfl⟩ := ih hr hs htail
      exact ⟨by rw [hop], rfl⟩
    | loop body rest' =>
      exact absurd (List.cons.inj h).1 (Operator.symbol_ne_of_not_isBracket o.2).1
  | loop body rest ihb ihr =>
    cases u with
    | done =>
      have := hs '[' (by rw [show s = _ from h.symm]; rfl)
      exact absurd this (by decide)
    | op p rest' =>
      exact absurd (List.cons.inj h).1.symm (Operator.symbol_ne_of_not_isBracket p.2).1
    | loop body' rest' =>
      have htail : (body.text ++ ']' :: rest.text) ++ r = (body'.text ++ ']' :: rest'.text) ++ s :=
        (List.cons.inj h).2
      rw [List.append_assoc, List.append_assoc] at htail
      obtain ⟨rfl, hrest⟩ := ihb (by intro c hc; cases hc; rfl) (by intro c hc; cases hc; rfl) htail
      obtain ⟨rfl, rfl⟩ := ihr hr hs (List.cons.inj hrest).2
      exact ⟨rfl, rfl⟩

/-- A text is the text of one tree at most. -/
theorem text_injective {t u : Code} (h : t.text = u.text) : t = u := by
  have hnil : IsEnd [] := by intro c hc; cases hc
  exact (text_append_inj hnil hnil (by rw [h])).1

/-- A text of operators none of whose ends opens more brackets than it closes begins with the text
of a tree, up to its end or to a closing bracket. -/
theorem exists_text_append (cs : List Char) (hops : ∀ c ∈ cs, (Operator.ofSymbol? c).isSome)
    (hends : ∀ s, s <:+ cs → s.count '[' ≤ s.count ']') :
    ∃ (t : Code) (r : List Char), cs = t.text ++ r ∧ IsEnd r := by
  -- A loop takes up its body and the text behind its closing bracket, which is a shorter end.
  induction hn : cs.length using Nat.strong_induction_on generalizing cs with
  | _ n ih =>
    subst hn
    cases cs with
    | nil => exact ⟨done, [], rfl, by intro c hc; cases hc⟩
    | cons c cs =>
      obtain ⟨o, ho⟩ := Option.isSome_iff_exists.1 (hops c List.mem_cons_self)
      obtain rfl := Operator.symbol_of_ofSymbol? ho
      obtain ⟨t, r, rfl, hr⟩ := ih cs.length (Nat.lt_succ_self _) cs
        (fun c hc => hops c (List.mem_cons_of_mem _ hc))
        (fun s hs => hends s (hs.trans (List.suffix_cons _ _))) rfl
      cases hb : o.isBracket with
      | false => exact ⟨op ⟨o, hb⟩ t, r, rfl, hr⟩
      | true =>
        cases o with
        | endLoop => exact ⟨done, _, rfl, by intro c hc; cases hc; rfl⟩
        | beginLoop =>
          cases r with
          | nil =>
            -- The text would open one bracket more than it closes.
            have hle := hends _ List.suffix_rfl
            rw [List.append_nil, Operator.symbol, List.count_cons_self,
              List.count_cons_of_ne (by decide), t.count_text] at hle
            exact absurd hle (Nat.not_succ_le_self _)
          | cons c r =>
            obtain rfl := hr c rfl
            have hsuffix : r <:+ Operator.beginLoop.symbol :: (t.text ++ ']' :: r) :=
              ⟨Operator.beginLoop.symbol :: (t.text ++ [']']), by simp⟩
            obtain ⟨u, r', rfl, hr'⟩ := ih r.length (by simp; omega) r
              (fun c hc => hops c (hsuffix.subset hc)) (fun s hs => hends s (hs.trans hsuffix)) rfl
            exact ⟨loop t u, r', by simp [text, Operator.symbol], hr'⟩
        | _ => cases hb

/-- A text of operators whose brackets balance is the text of a tree. -/
theorem exists_text_eq {cs : List Char} (hops : ∀ c ∈ cs, (Operator.ofSymbol? c).isSome)
    (hb : Balanced cs) : ∃ t : Code, t.text = cs := by
  obtain ⟨hend, hpre⟩ := hb
  have hends (s : List Char) (hs : s <:+ cs) : s.count '[' ≤ s.count ']' := by
    obtain ⟨p, rfl⟩ := hs
    have := hpre p.length (by simp)
    simp only [height, List.take_left, List.take_length, List.count_append] at this hend
    omega
  obtain ⟨t, r, rfl, hr⟩ := exists_text_append cs hops hends
  cases r with
  | nil => exact ⟨t, by simp⟩
  | cons c r =>
    obtain rfl := hr c rfl
    have hlen : t.text.length + 1 ≤ (t.text ++ ']' :: r).length := by simp
    have := hpre _ hlen
    have hclose : (t.text ++ ']' :: r)[t.text.length]? = some ']' := by simp
    rw [height_succ_of_close hclose, height, List.take_left, t.count_text] at this
    omega

end Code

end TapeMachine
