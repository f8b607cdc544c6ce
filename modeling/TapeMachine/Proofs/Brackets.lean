import Mathlib.Data.List.Sort

/-!
# The brackets of a text

Which opening brackets of a text are still open at a position is said twice here.
`Brackets.unclosed` says it by the text alone: a bracket is open unless a later one closes it, and
two brackets belong together when the text between them is balanced.  `Brackets.openAt` says it by a
stack on which positions are put and taken from left to right.  The two agree wherever no closing
bracket stands alone (`Brackets.reverse_openAt`).  Both are tied to the `height` of a position, the
number of brackets opened before it less the number closed.
-/

namespace TapeMachine

namespace Brackets

variable {cs : List Char} {e i k : Nat}

/-! ### Height -/

/-- The number of brackets opened less the number closed in the first `k` characters. -/
def height (cs : List Char) (k : Nat) : Int :=
  (cs.take k).count '[' - (cs.take k).count ']'

/-- As many brackets are closed as opened, and no beginning of the text closes more than it
opens. -/
def Balanced (cs : List Char) : Prop :=
  height cs cs.length = 0 ∧ ∀ k ≤ cs.length, 0 ≤ height cs k

instance : DecidablePred Balanced := fun cs =>
  inferInstanceAs (Decidable (height cs cs.length = 0 ∧ ∀ k ≤ cs.length, 0 ≤ height cs k))

/-- Up to and including position `j`, more brackets are closed than opened. -/
def Overclosed (cs : List Char) (j : Nat) : Prop :=
  (cs.take (j + 1)).count '[' < (cs.take (j + 1)).count ']'

/-- No beginning of the first `e` characters closes more brackets than it opens. -/
def Covered (cs : List Char) (e : Nat) : Prop := ∀ k ≤ e, 0 ≤ height cs k

@[simp] theorem height_zero (cs : List Char) : height cs 0 = 0 := rfl

theorem height_add (cs : List Char) (a j : Nat) :
    height cs (a + j) = height cs a + height (cs.drop a) j := by
  simp only [height, List.take_add, List.count_append]
  omega

theorem height_succ {c : Char} (h : cs[k]? = some c) :
    height cs (k + 1) = height cs k + ([c].count '[' - [c].count ']' : Int) := by
  simp only [height, List.take_add_one, h, Option.toList_some, List.count_append]
  omega

theorem height_succ_of_open (h : cs[k]? = some '[') : height cs (k + 1) = height cs k + 1 :=
  height_succ h

theorem height_succ_of_close (h : cs[k]? = some ']') : height cs (k + 1) = height cs k - 1 :=
  height_succ h

theorem height_succ_of_other (ho : cs[k]? ≠ some '[') (hc : cs[k]? ≠ some ']') :
    height cs (k + 1) = height cs k := by
  cases h : cs[k]? with
  | none =>
    -- Behind the end of the text nothing is added.
    have hlen := List.getElem?_eq_none_iff.1 h
    rw [height, height, List.take_of_length_le hlen, List.take_of_length_le (Nat.le_succ_of_le hlen)]
  | some c =>
    have hopen : c ≠ '[' := fun hx => ho (by rw [h, hx])
    have hclose : c ≠ ']' := fun hx => hc (by rw [h, hx])
    rw [height_succ h, List.count_cons_of_ne hopen, List.count_cons_of_ne hclose]
    simp

theorem overclosed_iff : Overclosed cs k ↔ height cs (k + 1) < 0 := by
  unfold Overclosed height
  omega

theorem Covered.mono (h : Covered cs e) (hk : k ≤ e) : Covered cs k :=
  fun j hj => h j (hj.trans hk)

theorem Covered.succ (h : Covered cs e) (hs : 0 ≤ height cs (e + 1)) : Covered cs (e + 1) := by
  intro k hk
  obtain hk | rfl := Nat.le_succ_iff.1 hk
  · exact h k hk
  · exact hs

theorem Covered.not_overclosed (h : Covered cs e) (hk : k < e) : ¬ Overclosed cs k := by
  rw [overclosed_iff, not_lt]
  exact h (k + 1) hk

theorem Covered.not_overclosed_of_length_le (h : Covered cs e) (he : cs.length ≤ e) :
    ¬ Overclosed cs k := by
  intro hk
  obtain hke | hek := Nat.lt_or_ge k e
  · exact h.not_overclosed hke hk
  · have hall : cs.take (k + 1) = cs.take e := by
      rw [List.take_of_length_le he, List.take_of_length_le (by omega)]
    have := h e (Nat.le_refl e)
    rw [Overclosed, hall] at hk
    unfold height at this
    omega

/-! ### Brackets that belong together -/

/-- The bracket at `k` closes the one at `i`: the text between them is balanced. -/
def Closes (cs : List Char) (i k : Nat) : Prop :=
  i < k ∧ cs[i]? = some '[' ∧ cs[k]? = some ']' ∧ Balanced (cs.extract (i + 1) k)

instance (cs : List Char) (i k : Nat) : Decidable (Closes cs i k) :=
  inferInstanceAs (Decidable (_ ∧ _))

/-- The positions before `e`, in order, of the opening brackets that no bracket before `e`
closes. -/
def unclosed (cs : List Char) (e : Nat) : List Nat :=
  (List.range e).filter fun i => cs[i]? = some '[' ∧ ∀ k < e, ¬ Closes cs i k

theorem height_extract {a b j : Nat} (h : a + j ≤ b) :
    height (cs.extract a b) j = height cs (a + j) - height cs a := by
  have hj : min j (b - a) = j := by omega
  have ht : (cs.extract a b).take j = (cs.drop a).take j := by
    rw [List.extract_eq_take_drop, List.take_take, hj]
  rw [height_add, height, ht, ← height]
  omega

theorem length_extract_of_close (hk : cs[k]? = some ']') (a : Nat) :
    (cs.extract a k).length = k - a := by
  obtain ⟨hlt, -⟩ := List.getElem?_eq_some_iff.1 hk
  rw [List.extract_eq_take_drop, List.length_take, List.length_drop]
  omega

/-- Two brackets belong together when the second brings the height back to where it was before the
first, and nothing in between does. -/
theorem closes_iff : Closes cs i k ↔ i < k ∧ cs[i]? = some '[' ∧ cs[k]? = some ']' ∧
    height cs (k + 1) = height cs i ∧ ∀ j, i < j → j ≤ k → height cs i < height cs j := by
  refine and_congr_right fun hlt => and_congr_right fun ho => and_congr_right fun hc => ?_
  have hi := height_succ_of_open ho
  have hk := height_succ_of_close hc
  have hlen := length_extract_of_close hc (i + 1)
  rw [Balanced, hlen]
  constructor
  · rintro ⟨hend, hin⟩
    rw [height_extract (by omega), show i + 1 + (k - (i + 1)) = k by omega] at hend
    refine ⟨by omega, fun j hij hjk => ?_⟩
    have hj := hin (j - (i + 1)) (by omega)
    rw [height_extract (by omega), show i + 1 + (j - (i + 1)) = j by omega] at hj
    omega
  · rintro ⟨hend, hin⟩
    rw [height_extract (by omega), show i + 1 + (k - (i + 1)) = k by omega]
    refine ⟨by omega, fun j hj => ?_⟩
    rw [height_extract (by omega)]
    have := hin (i + 1 + j) (by omega) (by omega)
    omega

/-- An opening bracket is closed by no bracket before `e` when the height stays above it. -/
theorem forall_not_closes_iff (ho : cs[i]? = some '[') :
    (∀ k < e, ¬ Closes cs i k) ↔ ∀ j, i < j → j ≤ e → height cs i < height cs j := by
  have hi := height_succ_of_open ho
  constructor
  · intro h j
    -- The first position at which the height falls back is just behind the closing bracket.
    induction j using Nat.strong_induction_on with
    | _ j ih =>
      intro hij hje
      obtain ⟨k, rfl⟩ : ∃ k, j = k + 1 := ⟨j - 1, by omega⟩
      obtain rfl | hik := Nat.eq_or_lt_of_le (Nat.lt_succ_iff.1 hij)
      · omega
      have hk := ih k (by omega) hik (by omega)
      by_contra hfall
      by_cases hopen : cs[k]? = some '['
      · have := height_succ_of_open hopen
        omega
      by_cases hclose : cs[k]? = some ']'
      · have hs := height_succ_of_close hclose
        refine h k hje (closes_iff.2 ⟨hik, ho, hclose, by omega, fun l hil hlk => ?_⟩)
        obtain rfl | hlk := Nat.eq_or_lt_of_le hlk
        · exact hk
        · exact ih l (by omega) hil (by omega)
      · have := height_succ_of_other hopen hclose
        omega
  · intro h k hk hcl
    obtain ⟨hik, -, -, hback, -⟩ := closes_iff.1 hcl
    have := h (k + 1) (by omega) hk
    omega

/-! ### The stack of open brackets -/

/-- The positions of the brackets that are open before position `e`, the innermost first: an opening
bracket puts its position on the stack and a closing one takes the last off. -/
def openAt (cs : List Char) : Nat → List Nat
  | 0 => []
  | e + 1 =>
    if cs[e]? = some '[' then e :: openAt cs e
    else if cs[e]? = some ']' then (openAt cs e).tail
    else openAt cs e

@[simp] theorem openAt_zero (cs : List Char) : openAt cs 0 = [] := rfl

theorem openAt_succ_of_open (h : cs[e]? = some '[') : openAt cs (e + 1) = e :: openAt cs e := by
  simp [openAt, h]

theorem openAt_succ_of_close (h : cs[e]? = some ']') :
    openAt cs (e + 1) = (openAt cs e).tail := by
  simp [openAt, h]

theorem openAt_succ_of_other (ho : cs[e]? ≠ some '[') (hc : cs[e]? ≠ some ']') :
    openAt cs (e + 1) = openAt cs e := by
  simp [openAt, ho, hc]

theorem of_mem_openAt (h : i ∈ openAt cs e) : i < e ∧ cs[i]? = some '[' := by
  induction e with
  | zero => cases h
  | succ e ih =>
    have keep (hm : i ∈ openAt cs e) : i < e + 1 ∧ cs[i]? = some '[' :=
      ⟨(ih hm).1.trans (Nat.lt_succ_self e), (ih hm).2⟩
    unfold openAt at h
    split_ifs at h with ho hc
    · obtain rfl | hm := List.mem_cons.1 h
      · exact ⟨Nat.lt_succ_self i, ho⟩
      · exact keep hm
    · exact keep (List.mem_of_mem_tail h)
    · exact keep h

theorem openAt_sorted (cs : List Char) (e : Nat) : (openAt cs e).Pairwise (· > ·) := by
  induction e with
  | zero => exact List.Pairwise.nil
  | succ e ih =>
    unfold openAt
    split_ifs
    · exact List.pairwise_cons.2 ⟨fun i hi => (of_mem_openAt hi).1, ih⟩
    · exact ih.tail
    · exact ih

/-- Below an open bracket stands what was open at that bracket. -/
theorem openAt_of_eq_append {l ks : List Nat} (h : openAt cs e = l ++ k :: ks) :
    openAt cs k = ks := by
  induction e generalizing l with
  | zero => simp at h
  | succ e ih =>
    unfold openAt at h
    split_ifs at h
    · cases l with
      | nil =>
        obtain ⟨rfl, rfl⟩ := List.cons.inj h
        rfl
      | cons p l => exact ih (List.cons.inj h).2
    · cases hs : openAt cs e with
      | nil => simp [hs] at h
      | cons p ps =>
        rw [hs, List.tail_cons] at h
        exact ih (l := p :: l) (by rw [hs, h, List.cons_append])
    · exact ih h

theorem length_openAt (h : Covered cs e) : ((openAt cs e).length : Int) = height cs e := by
  induction e with
  | zero => rfl
  | succ e ih =>
    have hprev := ih (h.mono (Nat.le_succ e))
    unfold openAt
    split_ifs with ho hc
    · rw [height_succ_of_open ho, ← hprev, List.length_cons]
      rfl
    · have hs := h (e + 1) (Nat.le_refl _)
      rw [height_succ_of_close hc] at hs ⊢
      rw [List.length_tail]
      omega
    · rw [height_succ_of_other ho hc, hprev]

/-- Where no bracket is open, a closing bracket closes one too many. -/
theorem overclosed_of_openAt_eq_nil (h : Covered cs e) (ho : openAt cs e = [])
    (hc : cs[e]? = some ']') : Overclosed cs e := by
  have hlen := length_openAt h
  have hs := height_succ_of_close hc
  rw [ho, List.length_nil] at hlen
  rw [overclosed_iff]
  omega

/-- A bracket is on the stack when the height has stayed above it. -/
theorem mem_openAt_iff (h : Covered cs e) : i ∈ openAt cs e ↔
    i < e ∧ cs[i]? = some '[' ∧ ∀ j, i < j → j ≤ e → height cs i < height cs j := by
  induction e with
  | zero => simp
  | succ e ih =>
    have hprev := h.mono (Nat.le_succ e)
    have hlen := length_openAt h
    -- A member of the stack stands above what was open at it, so its height is less.
    have below (hm : i ∈ openAt cs (e + 1)) : height cs i < height cs (e + 1) := by
      obtain ⟨pre, ks, heq⟩ := List.append_of_mem hm
      have hi := (of_mem_openAt hm).1
      rw [← hlen, heq, ← length_openAt (h.mono hi.le), openAt_of_eq_append heq]
      simp only [List.length_append, List.length_cons]
      omega
    constructor
    · intro hm
      obtain ⟨hi, ho⟩ := of_mem_openAt hm
      refine ⟨hi, ho, fun j hij hj => ?_⟩
      obtain hj | rfl := Nat.le_succ_iff.1 hj
      · have hmem : i ∈ openAt cs e := by
          unfold openAt at hm
          split_ifs at hm
          · exact (List.mem_cons.1 hm).resolve_left (by omega)
          · exact List.mem_of_mem_tail hm
          · exact hm
        exact ((ih hprev).1 hmem).2.2 j hij hj
      · exact below hm
    · rintro ⟨hi, ho, hstay⟩
      obtain rfl | hi := Nat.eq_or_lt_of_le (Nat.lt_succ_iff.1 hi)
      · rw [openAt_succ_of_open ho]
        exact List.mem_cons_self
      have hmem := (ih hprev).2 ⟨hi, ho, fun j hij hj => hstay j hij (by omega)⟩
      unfold openAt
      split_ifs with ho' hc
      · exact List.mem_cons_of_mem _ hmem
      · -- The bracket taken off is not this one: its height is that of the position reached.
        cases hs : openAt cs e with
        | nil => simp [hs] at hmem
        | cons k ks =>
          rw [hs] at hmem
          refine (List.mem_cons.1 hmem).resolve_left ?_
          rintro rfl
          have hks : openAt cs i = ks := openAt_of_eq_append (l := []) hs
          have := hstay (e + 1) (by omega) (Nat.le_refl _)
          rw [openAt_succ_of_close hc, hs, List.tail_cons, ← hks] at hlen
          rw [length_openAt (hprev.mono hi.le)] at hlen
          omega
      · exact hmem

/-- **The stack holds the unclosed brackets.**  Where no closing bracket stands alone, the stack is
the list of the opening brackets that no later one closes. -/
theorem reverse_openAt (h : Covered cs e) : (openAt cs e).reverse = unclosed cs e := by
  have hsorted : (openAt cs e).reverse.Pairwise (· < ·) :=
    List.pairwise_reverse.2 (openAt_sorted cs e)
  have hunclosed : (unclosed cs e).Pairwise (· < ·) := List.pairwise_lt_range.filter _
  refine List.Perm.eq_of_pairwise' hsorted hunclosed
    ((List.perm_ext_iff_of_nodup (hsorted.imp Nat.ne_of_lt) (hunclosed.imp Nat.ne_of_lt)).2 ?_)
  intro i
  rw [List.mem_reverse, mem_openAt_iff h, unclosed, List.mem_filter, List.mem_range]
  refine and_congr_right fun _ => ?_
  rw [decide_eq_true_iff]
  exact and_congr_right fun ho => (forall_not_closes_iff ho).symm

example : unclosed ['[', '+', '[', '-', ']', '['] 6 = [0, 5] := by decide

end Brackets

end TapeMachine
