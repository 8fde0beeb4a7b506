import ScriptAtlas.Text.Blank

/-!
Trimmed texts. What trimming leaves is a part of the text, and trimming it again changes nothing.
-/

namespace ScriptAtlas.Text

section Blanks

variable {two : UInt8 → UInt8 → Bool} {three : UInt8 → UInt8 → UInt8 → Bool}

theorem dropBlanks_suffix (t : Text) : dropBlanks two three t <:+ t := by
  fun_induction dropBlanks two three t with
  | case1 => exact List.suffix_rfl
  | case2 b r blank ih => exact ih.trans (List.suffix_cons b r)
  | case3 b solid => exact List.suffix_rfl
  | case4 b solid c r pair ih => exact ih.trans (List.suffix_append [b, c] r)
  | case5 b solid c apart => exact List.suffix_rfl
  | case6 b solid c apart d r triple ih => exact ih.trans (List.suffix_append [b, c, d] r)
  | case7 b solid c apart d r other => exact List.suffix_rfl

theorem dropBlanks_dropBlanks (t : Text) :
    dropBlanks two three (dropBlanks two three t) = dropBlanks two three t := by
  fun_induction dropBlanks two three t with
  | case1 => rfl
  | case2 b r blank ih => exact ih
  | case3 b solid => simp [dropBlanks, solid]
  | case4 b solid c r pair ih => exact ih
  | case5 b solid c apart => simp [dropBlanks, solid, apart]
  | case6 b solid c apart d r triple ih => exact ih
  | case7 b solid c apart d r other => simp [dropBlanks, solid, apart, other]

/-- A text that begins with no blank does not begin with one when its end is cut off. -/
theorem dropBlanks_of_isPrefix {t front : Text} (fixed : dropBlanks two three t = t) (cut : front <+: t) :
    dropBlanks two three front = front := by
  have shorter : ∀ dropped kept : Text, dropped ≠ [] → t = dropped ++ kept →
      dropBlanks two three t ≠ dropBlanks two three kept := by
    intro dropped kept some split same
    have suffix : dropBlanks two three kept <:+ kept := dropBlanks_suffix kept
    have positive := List.length_pos_iff.mpr some
    have bound := suffix.length_le
    rw [← same, fixed, split, List.length_append] at bound
    omega
  obtain ⟨rest, rfl⟩ := cut
  fun_cases dropBlanks two three front with
  | case1 => rfl
  | case2 b r blank =>
      refine absurd ?_ (shorter [b] (r ++ rest) (by simp) rfl)
      simp [dropBlanks.eq_def two three (b :: (r ++ rest)), blank]
  | case3 b solid => rfl
  | case4 b solid c r pair =>
      refine absurd ?_ (shorter [b, c] (r ++ rest) (by simp) rfl)
      simp [dropBlanks.eq_def two three (b :: c :: (r ++ rest)), solid, pair]
  | case5 b solid c apart => rfl
  | case6 b solid c apart d r triple =>
      refine absurd ?_ (shorter [b, c, d] (r ++ rest) (by simp) rfl)
      simp [dropBlanks, solid, apart, triple]
  | case7 b solid c apart d r other => rfl

end Blanks

theorem isPrefix_trimBack (t : Text) : t.trimBack <+: t := by
  rw [trimBack, ← List.reverse_suffix, List.reverse_reverse]
  exact dropBlanks_suffix _

theorem isInfix_trim (t : Text) : t.trim <:+: t :=
  (isPrefix_trimBack t.trimFront).isInfix.trans (dropBlanks_suffix t).isInfix

theorem trim_length_le (t : Text) : t.trim.length ≤ t.length :=
  (isInfix_trim t).length_le

theorem mem_of_mem_trim {b : UInt8} {t : Text} (member : b ∈ t.trim) : b ∈ t :=
  (isInfix_trim t).subset member

@[simp] theorem trim_trim (t : Text) : t.trim.trim = t.trim := by
  have front : t.trim.trimFront = t.trim :=
    dropBlanks_of_isPrefix (dropBlanks_dropBlanks t) (isPrefix_trimBack t.trimFront)
  rw [trim, front, trim, trimBack, trimBack, List.reverse_reverse, dropBlanks_dropBlanks]

end ScriptAtlas.Text
