import Mathlib.Algebra.GroupWithZero.Nat
import ScriptAtlas.Line.Basic

/-!
Searching and summing over the lines of a script: what the nearest code line before or after a place
is, and how sums over neighbouring ranges add up.
-/

namespace ScriptAtlas

namespace Script

theorem line_of_size_le (s : Script) (i : Nat) (beyond : s.size ≤ i) : s.line i = Line.absent := by
  simp [line, Array.getD, Nat.not_lt.mpr beyond]

theorem line_eq_getElem (s : Script) (i : Nat) (inside : i < s.size) : s.line i = s[i] := by
  simp [line, Array.getD, inside]

theorem lt_size_of_isCode (s : Script) (i : Nat) (code : (s.line i).isCode = true) : i < s.size := by
  apply Nat.lt_of_not_le
  intro beyond
  rw [line_of_size_le s i beyond] at code
  simp [Line.absent, Line.isCode, Line.isQuiet] at code

/-! ### The nearest code line -/

theorem firstCode_eq_some (s : Script) (count i j : Nat) (found : s.firstCode count i = some j) :
    i ≤ j ∧ j < i + count ∧ (s.line j).isCode = true ∧
      ∀ k, i ≤ k → k < j → (s.line k).isCode = false := by
  induction count generalizing i with
  | zero => simp [firstCode] at found
  | succ count ih =>
      rw [firstCode] at found
      split at found
      · rename_i code
        cases found
        exact ⟨Nat.le_refl _, by omega, code, fun k low high => by omega⟩
      · rename_i quiet
        obtain ⟨low, high, code, before⟩ := ih (i + 1) found
        refine ⟨by omega, by omega, code, ?_⟩
        intro k from_i below
        by_cases same : k = i
        · simpa [same] using quiet
        · exact before k (by omega) below

theorem firstCode_eq_none (s : Script) (count i : Nat) (absent : s.firstCode count i = none) :
    ∀ k, i ≤ k → k < i + count → (s.line k).isCode = false := by
  induction count generalizing i with
  | zero => intro k low high; omega
  | succ count ih =>
      rw [firstCode] at absent
      split at absent
      · cases absent
      · rename_i quiet
        intro k low high
        by_cases same : k = i
        · simpa [same] using quiet
        · exact ih (i + 1) absent k (by omega) (by omega)

theorem nextCode_eq_some (s : Script) (i limit j : Nat) (found : s.nextCode i limit = some j) :
    i ≤ j ∧ j < limit ∧ (s.line j).isCode = true ∧
      ∀ k, i ≤ k → k < j → (s.line k).isCode = false := by
  obtain ⟨low, high, code, before⟩ := firstCode_eq_some s _ i j found
  exact ⟨low, by omega, code, before⟩

theorem nextCode_eq_none (s : Script) (i limit : Nat) (absent : s.nextCode i limit = none) :
    ∀ k, i ≤ k → k < limit → (s.line k).isCode = false := by
  intro k low high
  by_cases inside : k < s.size
  · exact firstCode_eq_none s _ i absent k low (by omega)
  · rw [line_of_size_le s k (by omega)]
    rfl

theorem nextCode_eq_of_first (s : Script) (i limit j : Nat) (low : i ≤ j) (high : j < limit)
    (code : (s.line j).isCode = true)
    (before : ∀ k, i ≤ k → k < j → (s.line k).isCode = false) : s.nextCode i limit = some j := by
  cases found : s.nextCode i limit with
  | none =>
      have quiet := nextCode_eq_none s i limit found j low high
      simp [code] at quiet
  | some m =>
      obtain ⟨from_i, _, codeM, beforeM⟩ := nextCode_eq_some s i limit m found
      have notBefore : ¬ m < j := fun less => by simp [before m from_i less] at codeM
      have notAfter : ¬ j < m := fun less => by simp [beforeM j low less] at code
      rw [show m = j by omega]

theorem prevCode_eq_some (s : Script) (floor stop j : Nat) (found : s.prevCode floor stop = some j) :
    floor ≤ j ∧ j < stop ∧ (s.line j).isCode = true ∧
      ∀ k, j < k → k < stop → (s.line k).isCode = false := by
  induction stop with
  | zero => simp [prevCode] at found
  | succ i ih =>
      rw [prevCode] at found
      split at found
      · cases found
      · split at found
        · rename_i inside code
          cases found
          exact ⟨by omega, by omega, code, fun k low high => by omega⟩
        · rename_i quiet
          obtain ⟨low, high, code, after⟩ := ih found
          refine ⟨low, by omega, code, ?_⟩
          intro k above below
          by_cases same : k = i
          · simpa [same] using quiet
          · exact after k above (by omega)

theorem prevCode_eq_none (s : Script) (floor stop : Nat) (absent : s.prevCode floor stop = none) :
    ∀ k, floor ≤ k → k < stop → (s.line k).isCode = false := by
  induction stop with
  | zero => intro k _ high; omega
  | succ i ih =>
      intro k low high
      rw [prevCode] at absent
      split at absent
      · omega
      · split at absent
        · cases absent
        · rename_i quiet
          by_cases same : k = i
          · simpa [same] using quiet
          · exact ih absent k low (by omega)

theorem prevCode_eq_of_last (s : Script) (floor stop j : Nat) (low : floor ≤ j) (high : j < stop)
    (code : (s.line j).isCode = true)
    (after : ∀ k, j < k → k < stop → (s.line k).isCode = false) :
    s.prevCode floor stop = some j := by
  cases found : s.prevCode floor stop with
  | none =>
      have quiet := prevCode_eq_none s floor stop found j low high
      simp [code] at quiet
  | some m =>
      obtain ⟨_, below, codeM, afterM⟩ := prevCode_eq_some s floor stop m found
      have notAfter : ¬ j < m := fun less => by simp [after m less below] at codeM
      have notBefore : ¬ m < j := fun less => by simp [afterM j less high] at code
      rw [show m = j by omega]

theorem nextCode_skip (s : Script) (lo hi limit : Nat) (ordered : lo ≤ hi)
    (quiet : ∀ k, lo ≤ k → k < hi → (s.line k).isCode = false) :
    s.nextCode lo limit = s.nextCode hi limit := by
  cases found : s.nextCode lo limit with
  | some next =>
      obtain ⟨low, high, code, before⟩ := nextCode_eq_some s lo limit next found
      have from_hi : hi ≤ next := by
        apply Nat.le_of_not_lt
        intro inside
        simp [quiet next low inside] at code
      exact (nextCode_eq_of_first s hi limit next from_hi high code
        fun k low high => before k (by omega) high).symm
  | none =>
      have absent := nextCode_eq_none s lo limit found
      cases other : s.nextCode hi limit with
      | none => rfl
      | some next =>
          obtain ⟨low, high, code, _⟩ := nextCode_eq_some s hi limit next other
          simp [absent next (by omega) high] at code

theorem prevCode_skip (s : Script) (floor lo hi : Nat) (ordered : lo ≤ hi)
    (quiet : ∀ k, lo ≤ k → k < hi → (s.line k).isCode = false) :
    s.prevCode floor hi = s.prevCode floor lo := by
  cases found : s.prevCode floor hi with
  | some prev =>
      obtain ⟨low, high, code, after⟩ := prevCode_eq_some s floor hi prev found
      have below : prev < lo := by
        apply Nat.lt_of_not_le
        intro inside
        simp [quiet prev inside high] at code
      exact (prevCode_eq_of_last s floor lo prev low below code
        fun k low high => after k low (by omega)).symm
  | none =>
      have absent := prevCode_eq_none s floor hi found
      cases other : s.prevCode floor lo with
      | none => rfl
      | some prev =>
          obtain ⟨low, high, code, _⟩ := prevCode_eq_some s floor lo prev other
          simp [absent prev low (by omega)] at code

theorem isQuiet_iff (s : Script) (lo hi : Nat) :
    s.isQuiet lo hi = true ↔ ∀ k, lo ≤ k → k < hi → (s.line k).isCode = false := by
  rw [isQuiet, Option.isNone_iff_eq_none]
  constructor
  · intro absent k low high
    exact firstCode_eq_none s _ lo absent k low (by omega)
  · intro quiet
    cases found : s.firstCode (hi - lo) lo with
    | none => rfl
    | some j =>
        obtain ⟨low, high, code, _⟩ := firstCode_eq_some s _ lo j found
        simp [quiet j low (by omega)] at code

/-! ### The lines of a range -/

theorem mem_slice_iff (s : Script) (lo hi : Nat) (l : Line) :
    l ∈ s.slice lo hi ↔ ∃ k, lo ≤ k ∧ k < hi ∧ k < s.size ∧ s.line k = l := by
  rw [slice, List.mem_iff_getElem?]
  constructor
  · rintro ⟨j, here⟩
    rw [List.getElem?_take, List.getElem?_drop] at here
    split at here
    · rename_i below
      obtain ⟨inside, same⟩ := List.getElem?_eq_some_iff.mp here
      rw [Array.length_toList] at inside
      refine ⟨lo + j, by omega, by omega, inside, ?_⟩
      rw [line_eq_getElem s _ inside, ← same, Array.getElem_toList]
    · cases here
  · rintro ⟨k, low, high, inside, rfl⟩
    refine ⟨k - lo, ?_⟩
    rw [List.getElem?_take, List.getElem?_drop, if_pos (by omega), show lo + (k - lo) = k by omega,
      line_eq_getElem s k inside, Array.getElem?_toList, Array.getElem?_eq_getElem inside]

theorem slice_append (s : Script) (lo middle hi : Nat) (low : lo ≤ middle) (high : middle ≤ hi) :
    s.slice lo hi = s.slice lo middle ++ s.slice middle hi := by
  rw [slice, slice, slice, show hi - lo = middle - lo + (hi - middle) by omega, List.take_add,
    List.drop_drop, show lo + (middle - lo) = middle by omega]

theorem slice_singleton (s : Script) {i : Nat} (inside : i < s.size) : s.slice i (i + 1) = [s.line i] := by
  rw [slice, List.drop_eq_getElem_cons (by simpa using inside), show i + 1 - i = 1 by omega,
    line_eq_getElem s i inside]
  rfl

/-! ### Sums over ranges -/

theorem total_add (s : Script) (measure : Line → Int) (first second i : Nat) :
    s.total measure (first + second) i =
      s.total measure first i + s.total measure second (i + first) := by
  induction first generalizing i with
  | zero => simp [total]
  | succ first ih =>
      rw [Nat.succ_add, total, total, ih (i + 1), show i + 1 + first = i + (first + 1) by omega]
      omega

theorem weightFrom_eq_sum (s : Script) (count i : Nat) :
    s.weightFrom count i = (((s.toList.drop i).take count).map Line.weight).sum := by
  induction count generalizing i with
  | zero => simp [weightFrom]
  | succ count ih =>
      rw [weightFrom, ih (i + 1)]
      by_cases inside : i < s.size
      · have here : s.toList.drop i = s.line i :: s.toList.drop (i + 1) := by
          rw [line_eq_getElem s i inside, List.drop_eq_getElem_cons (by simpa using inside)]
          simp
        simp [here]
      · have beyond : s.size ≤ i := by omega
        have nothing : s.toList.drop i = [] := List.drop_eq_nil_of_le (by simpa using beyond)
        have after : s.toList.drop (i + 1) = [] := List.drop_eq_nil_of_le (by simp; omega)
        simp [nothing, after, line_of_size_le s i beyond, Line.absent]

theorem weight_eq_sum (s : Script) (lo hi : Nat) :
    s.weight lo hi = ((s.slice lo hi).map Line.weight).sum :=
  weightFrom_eq_sum s (hi - lo) lo

end Script

end ScriptAtlas
