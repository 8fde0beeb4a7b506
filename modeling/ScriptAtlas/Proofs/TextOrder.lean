import ScriptAtlas.Text.Basic

/-!
The byte order of texts, and lists that are sorted by it.
-/

namespace ScriptAtlas.Text

theorem before_iff (a b : Text) : before a b = true ↔ a < b := by
  induction a, b using before.induct with
  | case1 a => simp [before]
  | case2 b bs => simp [before]
  | case3 a as b bs ih => simp [before, ih, List.cons_lt_cons_iff]

theorem not_before_iff (a b : Text) : (!before b a) = true ↔ a ≤ b := by
  rw [Bool.not_eq_true', ← Bool.not_eq_true, before_iff, List.not_lt]

theorem pairwise_mergeSort {α : Type} (text : α → Text) (items : List α) :
    (items.mergeSort fun a b => !before (text b) (text a)).Pairwise fun a b => text a ≤ text b := by
  have trans : ∀ a b c : α, (!before (text b) (text a)) = true → (!before (text c) (text b)) = true →
      (!before (text c) (text a)) = true := by
    intro a b c
    simpa only [not_before_iff] using List.le_trans
  have total : ∀ a b : α, ((!before (text b) (text a)) || !before (text a) (text b)) = true := by
    intro a b
    simpa only [Bool.or_eq_true, not_before_iff] using List.le_total (text a) (text b)
  refine (List.pairwise_mergeSort trans total items).imp ?_
  intro a b below
  rwa [not_before_iff] at below

theorem sort_perm (ts : List Text) : (sort ts).Perm ts :=
  List.mergeSort_perm ts _

theorem sort_ascends (ts : List Text) : (sort ts).Pairwise (· ≤ ·) :=
  pairwise_mergeSort (fun t => t) ts

theorem sort_eq_iff (ts us : List Text) : sort ts = sort us ↔ ts.Perm us := by
  constructor
  · intro same
    exact (sort_perm ts).symm.trans (same ▸ sort_perm us)
  · intro perm
    have sorted := (sort_perm ts).trans (perm.trans (sort_perm us).symm)
    exact sorted.eq_of_pairwise (fun a b _ _ => List.le_antisymm) (sort_ascends ts) (sort_ascends us)

theorem sort_strict {ts : List Text} (distinct : ts.Nodup) : (sort ts).Pairwise (· < ·) := by
  have apart : (sort ts).Pairwise (· ≠ ·) := (sort_perm ts).nodup_iff.mpr distinct
  refine ((sort_ascends ts).and apart).imp ?_
  rintro a b ⟨below, different⟩
  exact Std.lt_of_le_of_ne below different

end ScriptAtlas.Text
