import ScriptAtlas.Block.Statement
import ScriptAtlas.Proofs.Lines

/-!
The extent of a statement: it ends on its first line or on a later code line within the window, and
what it takes in up to a line does not depend on how far the scan may go beyond that line.
-/

namespace ScriptAtlas

namespace Script

theorem followStatement_last (s : Script) (scan : StatementScan) (last count room i : Nat) :
    (s.followStatement scan last count room i).last = last ∨
      i ≤ (s.followStatement scan last count room i).last ∧
      (s.followStatement scan last count room i).last < i + count ∧
      (s.followStatement scan last count room i).last < i + room ∧
      (s.line (s.followStatement scan last count room i).last).isCode = true := by
  induction count generalizing scan last room i with
  | zero => exact .inl (by simp [followStatement])
  | succ count ih =>
      cases room with
      | zero => exact .inl (by simp [followStatement])
      | succ room =>
          rw [followStatement]
          dsimp only
          split
          · rcases ih scan last room (i + 1) with same | ⟨low, high, near, code⟩
            · exact .inl same
            · exact .inr ⟨by omega, by omega, by omega, code⟩
          · rename_i loud
            have codeHere : (s.line i).isCode = true := by simpa [Line.isCode] using loud
            split
            · exact .inl rfl
            · split
              · exact .inr ⟨Nat.le_refl i, by simp, by simp, codeHere⟩
              · rcases ih _ i room (i + 1) with same | ⟨low, high, near, code⟩
                · rw [same]
                  exact .inr ⟨Nat.le_refl i, by omega, by omega, codeHere⟩
                · exact .inr ⟨by omega, by omega, by omega, code⟩

theorem le_followStatement_last (s : Script) (scan : StatementScan) (last count room i : Nat)
    (before : last < i) : last ≤ (s.followStatement scan last count room i).last := by
  rcases followStatement_last s scan last count room i with same | ⟨low, _⟩ <;> omega

/-- A statement that takes in a code line does so under every bound that leaves room for this line:
all code lines up to it were taken in before. -/
theorem followStatement_reaches (s : Script) (scan : StatementScan)
    (last count other room i q : Nat) (before : last < i) (low : i ≤ q) (inside : q < i + other)
    (code : (s.line q).isCode = true)
    (reached : q ≤ (s.followStatement scan last count room i).last) :
    q ≤ (s.followStatement scan last other room i).last := by
  induction count generalizing scan last other room i with
  | zero =>
      simp only [followStatement] at reached
      omega
  | succ count ih =>
      cases other with
      | zero => omega
      | succ other =>
          cases room with
          | zero =>
              simp only [followStatement] at reached
              omega
          | succ room =>
              rw [followStatement] at reached ⊢
              dsimp only at reached ⊢
              -- Both scans see the same line and branch alike.
              split at reached
              · rename_i quiet
                rw [if_pos quiet]
                have later : i ≠ q := by
                  rintro rfl
                  simp [Line.isCode, quiet] at code
                exact ih scan last other room (i + 1) (by omega) (by omega) (by omega) reached
              · rename_i loud
                rw [if_neg loud]
                split at reached
                · simp only at reached
                  omega
                · rename_i taken
                  rw [if_neg taken]
                  split at reached
                  · rename_i ended
                    rw [if_pos ended]
                    exact reached
                  · rename_i ongoing
                    rw [if_neg ongoing]
                    by_cases here : q = i
                    · subst here
                      exact le_followStatement_last s _ q other room (q + 1) (by omega)
                    · exact ih _ i other room (i + 1) (by omega) (by omega) (by omega) reached

theorem statementExtent_last (s : Script) (i : Nat) (text : Text) (limit : Nat) :
    (s.statementExtent i text limit).last = i ∨
      i < (s.statementExtent i text limit).last ∧
      (s.statementExtent i text limit).last < limit ∧
      (s.statementExtent i text limit).last < i + StatementScan.window ∧
      (s.line (s.statementExtent i text limit).last).isCode = true := by
  rw [statementExtent]
  split
  · exact .inl rfl
  · rcases followStatement_last s _ i (min limit s.size - (i + 1)) (StatementScan.window - 1)
      (i + 1) with same | ⟨low, high, near, code⟩
    · exact .inl same
    · refine .inr ⟨by omega, by omega, ?_, code⟩
      have window : 0 < StatementScan.window := by decide
      omega

theorem le_statementExtent_last (s : Script) (i : Nat) (text : Text) (limit : Nat) :
    i ≤ (s.statementExtent i text limit).last := by
  rcases statementExtent_last s i text limit with same | ⟨low, _⟩ <;> omega

theorem statementExtent_lt (s : Script) (i : Nat) (text : Text) (limit : Nat) (inside : i < limit) :
    (s.statementExtent i text limit).last < limit := by
  rcases statementExtent_last s i text limit with same | ⟨_, below, _⟩
  · omega
  · exact below

theorem statementExtent_reaches (s : Script) (i : Nat) (text : Text) (limit other q : Nat)
    (after : i < q) (inside : q < other) (code : (s.line q).isCode = true)
    (reached : q ≤ (s.statementExtent i text limit).last) :
    q ≤ (s.statementExtent i text other).last := by
  have size := lt_size_of_isCode s q code
  rw [statementExtent] at reached ⊢
  split at reached
  · rename_i ended
    rw [if_pos ended]
    exact reached
  · rename_i ongoing
    rw [if_neg ongoing]
    exact followStatement_reaches s _ i _ _ _ (i + 1) q (by omega) (by omega) (by omega) code reached

theorem statementExtent_reaches_iff (s : Script) (i : Nat) (text : Text) {limit other q : Nat} (after : i < q)
    (inside : q < limit) (inside' : q < other) (code : (s.line q).isCode = true) :
    q ≤ (s.statementExtent i text limit).last ↔ q ≤ (s.statementExtent i text other).last :=
  ⟨statementExtent_reaches s i text limit other q after inside' code,
    statementExtent_reaches s i text other limit q after inside code⟩

theorem statementExtent_cut (s : Script) (i : Nat) (text : Text) {near far : Nat} (inside : i < near)
    (ordered : near ≤ far) (beyond : near ≤ (s.statementExtent i text far).last) :
    (s.statementExtent i text near).last = (s.prevCode (i + 1) near).getD i := by
  have below := statementExtent_lt s i text near inside
  cases found : s.prevCode (i + 1) near with
  | none =>
      rcases statementExtent_last s i text near with same | ⟨after, -, -, code⟩
      · exact same
      · simp [prevCode_eq_none s (i + 1) near found _ after below] at code
  | some q =>
      obtain ⟨after, before, code, later⟩ := prevCode_eq_some s (i + 1) near q found
      have passed : q ≤ (s.statementExtent i text far).last := by omega
      have reached : q ≤ (s.statementExtent i text near).last :=
        (statementExtent_reaches_iff s i text after before (by omega) code).mpr passed
      refine Nat.le_antisymm (Nat.le_of_not_lt fun past => ?_) reached
      rcases statementExtent_last s i text near with same | ⟨-, -, -, codeLast⟩
      · omega
      · simp [later _ past below] at codeLast

/-- A bound cuts a statement short where it ends beyond the bound, and changes nothing else. -/
theorem statementExtent_bounds (s : Script) (i : Nat) (text : Text) (near far : Nat) (inside : i < near)
    (ordered : near ≤ far) :
    i ≤ (s.statementExtent i text far).last ∧ (s.statementExtent i text far).last ≤ i + 39 ∧
    (s.statementExtent i text near).last =
      (if (s.statementExtent i text far).last < near then (s.statementExtent i text far).last
        else (s.prevCode (i + 1) near).getD i) ∧
    ∀ q, i < q → q < near → (s.line q).isCode = true →
      (q ≤ (s.statementExtent i text near).last ↔ q ≤ (s.statementExtent i text far).last) := by
  have reaches : ∀ q, i < q → q < near → (s.line q).isCode = true →
      (q ≤ (s.statementExtent i text near).last ↔ q ≤ (s.statementExtent i text far).last) :=
    fun q after before code => statementExtent_reaches_iff s i text after before (by omega) code
  have low := le_statementExtent_last s i text far
  have high : (s.statementExtent i text far).last ≤ i + 39 := by
    rcases statementExtent_last s i text far with same | ⟨-, -, window, -⟩
    · omega
    · rw [StatementScan.window] at window
      omega
  refine ⟨low, high, ?_, reaches⟩
  split
  · rename_i before
    -- either end is the first line or a code line before the bound, and each scan reaches that of the other
    have there : (s.statementExtent i text far).last ≤ (s.statementExtent i text near).last := by
      rcases statementExtent_last s i text far with same | ⟨after, -, -, code⟩
      · rw [same]
        exact le_statementExtent_last s i text near
      · exact (reaches _ after before code).mpr (Nat.le_refl _)
    have back : (s.statementExtent i text near).last ≤ (s.statementExtent i text far).last := by
      rcases statementExtent_last s i text near with same | ⟨after, below, -, code⟩
      · omega
      · exact (reaches _ after below code).mp (Nat.le_refl _)
    exact Nat.le_antisymm back there
  · rename_i past
    exact statementExtent_cut s i text inside ordered (Nat.le_of_not_lt past)

/-- A bound in the middle of a statement, behind a remark, and one behind its end. -/
theorem statementExtent_bounds_remark :
    let s := Script.ofLines [Text.ofString "SELECT a,", Text.ofString "  b", Text.ofString "-- from where",
      Text.ofString "FROM t", Text.ofString "PRINT 1"]
    let last : Nat → Nat := fun limit => (s.statementExtent 0 "SELECT A," limit).last
    0 < 3 ∧ 3 ≤ 5 ∧ last 3 = 1 ∧ last 5 = 3 ∧
      0 ≤ last 5 ∧ last 5 ≤ 0 + 39 ∧
      last 3 = (if last 5 < 3 then last 5 else (s.prevCode (0 + 1) 3).getD 0) ∧
      (s.line 1).isCode = true ∧ (1 ≤ last 3 ↔ 1 ≤ last 5) := by
  intro s last
  have ends : last 3 = 1 ∧ last 5 = 3 := by decide +kernel
  have code : (s.line 1).isCode = true := by decide +kernel
  obtain ⟨low, high, cut, reaches⟩ := statementExtent_bounds s 0 "SELECT A," 3 5 (by decide) (by decide)
  exact ⟨by decide, by decide, ends.1, ends.2, low, high, cut, code, reaches 1 (by decide) (by decide) code⟩

end Script

end ScriptAtlas
