/-!
# Signed indices

A sequence is indexed from either end: `0, 1, …` count from its front and `-1, -2, …` from its
back.  `Index.resolve` turns a signed index into a position.  An index past either end selects
nothing; one outside the range of a signed 64-bit word is told apart from the others.

Main statements: a resolved position lies inside the sequence (`Index.lt_of_resolve`), only indices
in range select anything (`Index.bounds_of_get`) and all of them do (`Index.exists_get`), and
overwriting the entry at an index keeps the length (`Index.length_of_set`).
-/

namespace TapeMachine

/-- Why a signed index selects nothing. -/
inductive IndexFault where
  /-- It lies past either end of the sequence. -/
  | outside
  /-- It does not fit into a signed 64-bit word. -/
  | oversized
deriving DecidableEq, Repr, Inhabited

namespace Index

/-- The integers that fit into a signed 64-bit word. -/
def fits (i : Int) : Bool := decide (-0x8000000000000000 ≤ i ∧ i < 0x8000000000000000)

/-- The position that `i` selects in a sequence of length `n`. -/
def resolve (n : Nat) (i : Int) : Except IndexFault Nat :=
  if 0 ≤ i ∧ i < n then .ok i.toNat
  else if i < 0 ∧ -n ≤ i then .ok (i + n).toNat
  else if fits i then .error .outside
  else .error .oversized

theorem lt_of_resolve {n k : Nat} {i : Int} (h : resolve n i = .ok k) : k < n := by
  unfold resolve at h
  split at h
  · cases h; omega
  · split at h
    · cases h; omega
    · split at h <;> cases h

variable {α : Type _}

/-- The entry that `i` selects. -/
def get (xs : List α) (i : Int) : Except IndexFault α :=
  match resolve xs.length i with
  | .ok k => match xs[k]? with
    | some x => .ok x
    | none => .error .outside
  | .error f => .error f

/-- The sequence with the entry that `i` selects replaced. -/
def set (xs : List α) (i : Int) (x : α) : Except IndexFault (List α) :=
  match resolve xs.length i with
  | .ok k => .ok (xs.set k x)
  | .error f => .error f

theorem length_of_set {xs ys : List α} {i : Int} {x : α} (h : set xs i x = .ok ys) :
    ys.length = xs.length := by
  unfold set at h
  split at h
  · cases h; simp
  · cases h

theorem bounds_of_get {xs : List α} {i : Int} {x : α} (h : get xs i = .ok x) :
    -xs.length ≤ i ∧ i < xs.length := by
  unfold get at h
  split at h
  · rename_i k hk
    unfold resolve at hk
    split at hk
    · omega
    · split at hk
      · omega
      · split at hk <;> cases hk
  · cases h

/-- Every index in range selects something. -/
theorem exists_get {xs : List α} {i : Int} (h : -xs.length ≤ i) (h' : i < xs.length) :
    ∃ x, get xs i = .ok x := by
  obtain ⟨k, hk⟩ : ∃ k, resolve xs.length i = .ok k := by
    unfold resolve
    by_cases hi : 0 ≤ i
    · exact ⟨i.toNat, if_pos ⟨hi, h'⟩⟩
    · exact ⟨(i + xs.length).toNat, by rw [if_neg (by omega), if_pos ⟨by omega, h⟩]⟩
  have hlt := lt_of_resolve hk
  refine ⟨xs[k], ?_⟩
  unfold get
  rw [hk]
  simp only [List.getElem?_eq_getElem hlt]

theorem mem_of_get {xs : List α} {i : Int} {x : α} (h : get xs i = .ok x) : x ∈ xs := by
  unfold get at h
  split at h
  · split at h <;> cases h
    exact List.mem_of_getElem? ‹_›
  · cases h

theorem mem_of_mem_set {xs ys : List α} {i : Int} {x y : α} (h : set xs i x = .ok ys)
    (hy : y ∈ ys) : y ∈ xs ∨ y = x := by
  unfold set at h
  split at h <;> cases h
  exact List.mem_or_eq_of_mem_set hy

/-- An index that counts from the front selects what stands there. -/
theorem get_natCast_eq_ok_iff {xs : List α} {k : Nat} {x : α} :
    get xs (k : Int) = .ok x ↔ xs[k]? = some x := by
  by_cases hk : k < xs.length
  · have hr : resolve xs.length k = .ok k := by simp [resolve, hk]
    simp [get, hr, List.getElem?_eq_getElem hk]
  · constructor
    · intro h
      have := (bounds_of_get h).2
      omega
    · intro h
      rw [List.getElem?_eq_none (Nat.le_of_not_lt hk)] at h
      cases h

end Index

end TapeMachine
