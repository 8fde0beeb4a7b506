import Mathlib
import ScriptAtlas.Chunk.Coverage

/-!
The coverage check decides exactly whether line ranges tile a script. The check looks at each range and
its predecessor in ascending order only; the statements here are about all ranges and all lines.
-/

namespace ScriptAtlas

/-! ### 64-bit sums -/

theorem wrap64_eq_self (n : Int) (low : minInt64 ≤ n) (high : n ≤ maxInt64) : wrap64 n = n := by
  simp only [minInt64, maxInt64] at low high
  apply Int.bmod_eq_of_le <;> omega

theorem wrap64_add (a b : Int) : wrap64 (wrap64 a + wrap64 b) = wrap64 (a + b) := by
  simp [wrap64]

namespace LineRange

def contains (r : LineRange) (line : Int) : Bool :=
  r.first ≤ line && line ≤ r.last

@[simp] theorem contains_iff (r : LineRange) (line : Int) :
    r.contains line = true ↔ r.first ≤ line ∧ line ≤ r.last := by
  simp [contains]

@[simp] theorem contains_eq_false_iff (r : LineRange) (line : Int) :
    r.contains line = false ↔ (r.first ≤ line → r.last < line) := by
  simp [contains]

def times (ranges : List LineRange) (line : Int) : Nat :=
  ranges.countP fun r => r.contains line

theorem times_cons_of_contains {r : LineRange} {line : Int} (rest : List LineRange)
    (inside : r.contains line = true) : times (r :: rest) line = times rest line + 1 :=
  List.countP_cons_of_pos inside

theorem times_cons_of_not_contains {r : LineRange} {line : Int} (rest : List LineRange)
    (outside : r.contains line = false) : times (r :: rest) line = times rest line :=
  List.countP_cons_of_neg (by simp [outside])

theorem times_eq_zero_iff (ranges : List LineRange) (line : Int) :
    times ranges line = 0 ↔ ∀ r ∈ ranges, r.contains line = false := by
  simp [times, List.countP_eq_zero]

def lengths (ranges : List LineRange) : Int :=
  (ranges.map fun r => r.last - r.first + 1).sum

@[simp] theorem lengths_nil : lengths [] = 0 :=
  rfl

@[simp] theorem lengths_cons (r : LineRange) (rest : List LineRange) :
    lengths (r :: rest) = r.last - r.first + 1 + lengths rest := by
  simp [lengths]

/-- Ranges that follow each other without a gap from line `first` to line `last`, none of them empty. -/
def Tile : Int → Int → List LineRange → Prop
  | first, last, [] => first = last + 1
  | first, last, r :: rest => r.first = first ∧ r.first ≤ r.last ∧ Tile (r.last + 1) last rest

def Ascending (ranges : List LineRange) : Prop :=
  ranges.Pairwise fun a b => a.first ≤ b.first

theorem Tile.bounds {first last : Int} {ranges : List LineRange} (tile : Tile first last ranges) :
    first ≤ last + 1 ∧ ∀ r ∈ ranges, first ≤ r.first ∧ r.first ≤ r.last ∧ r.last ≤ last := by
  induction ranges generalizing first with
  | nil => exact ⟨Int.le_of_eq tile, fun r member => by cases member⟩
  | cons r rest ih =>
      obtain ⟨start, ordered, after⟩ := tile
      obtain ⟨room, later⟩ := ih after
      refine ⟨by omega, ?_⟩
      intro other member
      rcases List.mem_cons.mp member with rfl | member
      · omega
      · have bounds := later other member
        omega

/-- Ascending ranges that hold each of the lines `first` to `last` once and no other line tile them. -/
theorem tile_of_times (first last : Int) (ranges : List LineRange) (room : first ≤ last + 1)
    (ordered : ∀ r ∈ ranges, r.first ≤ r.last) (ascending : Ascending ranges)
    (once : ∀ line, first ≤ line → line ≤ last → times ranges line = 1)
    (within : ∀ r ∈ ranges, first ≤ r.first ∧ r.last ≤ last) : Tile first last ranges := by
  induction ranges generalizing first with
  | nil =>
      by_cases empty : first ≤ last
      · have missing := once first (Int.le_refl first) empty
        cases missing
      · change first = last + 1
        omega
  | cons r rest ih =>
      obtain ⟨above, ascending⟩ := List.pairwise_cons.mp ascending
      have here := ordered r List.mem_cons_self
      have bounds := within r List.mem_cons_self
      have start : r.first = first := by
        -- Were the first line in front of `r`, no range would hold it.
        by_contra late
        have missing : times (r :: rest) first = 0 := by
          rw [times_eq_zero_iff]
          intro other member
          rw [contains_eq_false_iff]
          rcases List.mem_cons.mp member with rfl | member
          · omega
          · have := above other member
            omega
        have covered := once first (Int.le_refl first) (by omega)
        omega
      have apart : ∀ other ∈ rest, r.last + 1 ≤ other.first := by
        -- Two ranges would hold the first line of a range that begins inside `r`.
        intro other member
        by_contra early
        have order := above other member
        have extent := ordered other (List.mem_cons_of_mem r member)
        have covered := once other.first (by omega) (by omega)
        rw [times_cons_of_contains rest (by rw [contains_iff]; omega), Nat.add_eq_right,
          times_eq_zero_iff] at covered
        have outside := covered other member
        rw [contains_eq_false_iff] at outside
        omega
      refine ⟨start, here, ih (r.last + 1) (by omega) ?_ ascending ?_ ?_⟩
      · exact fun other member => ordered other (List.mem_cons_of_mem r member)
      · intro line low high
        have covered := once line (by omega) high
        rwa [times_cons_of_not_contains rest (by rw [contains_eq_false_iff]; omega)] at covered
      · intro other member
        exact ⟨apart other member, (within other (List.mem_cons_of_mem r member)).2⟩

end LineRange

namespace Coverage

open LineRange

/-- Line numbers and the sums that the check takes of them are 64-bit numbers: the line after each
range, and all lengths together. -/
structure Fits (ranges : List LineRange) (total : Int) : Prop where
  numbers : ∀ r ∈ ranges, r.first ≤ maxInt64 ∧ r.last + 1 ≤ maxInt64
  total : total ≤ maxInt64
  lengths : minInt64 ≤ lengths ranges ∧ lengths ranges ≤ maxInt64

theorem foldl_size (ranges : List LineRange) (sum : Int) :
    ranges.foldl (fun sum r => wrap64 (sum + r.size)) (wrap64 sum) = wrap64 (sum + lengths ranges) := by
  induction ranges generalizing sum with
  | nil => simp
  | cons r rest ih =>
      rw [List.foldl_cons, size, wrap64_add, ih, lengths_cons, Int.add_assoc]

/-! ### Gaps -/

structure WalkFits (total highest : Int) (ranges : List LineRange) : Prop where
  low : 0 ≤ highest
  next : highest + 1 ≤ maxInt64
  numbers : ∀ r ∈ ranges, r.first ≤ maxInt64 ∧ r.last + 1 ≤ maxInt64
  total : total ≤ maxInt64

section Walk

variable {total highest : Int} {r : LineRange} {rest ranges : List LineRange}

theorem WalkFits.tail (fits : WalkFits total highest (r :: rest)) :
    WalkFits total (max highest r.last) rest := by
  have low := fits.low
  have next := fits.next
  have here := fits.numbers r List.mem_cons_self
  refine ⟨by omega, by omega, ?_, fits.total⟩
  exact fun other member => fits.numbers other (List.mem_cons_of_mem r member)

theorem gapsFrom_nil (fits : WalkFits total highest []) :
    gapsFrom total highest [] = if highest < total then [⟨highest + 1, total⟩] else [] := by
  have low := fits.low
  rw [gapsFrom, wrap64_eq_self (highest + 1) (by rw [minInt64]; omega) fits.next]

theorem gapsFrom_cons (fits : WalkFits total highest (r :: rest)) :
    gapsFrom total highest (r :: rest) =
      (if highest + 1 < r.first then [⟨highest + 1, r.first - 1⟩] else []) ++
        gapsFrom total (max highest r.last) rest := by
  have low := fits.low
  have here := fits.numbers r List.mem_cons_self
  rw [gapsFrom, wrap64_eq_self (highest + 1) (by rw [minInt64]; omega) fits.next]
  split
  · rw [wrap64_eq_self (r.first - 1) (by rw [minInt64]; omega) (by omega)]
    rfl
  · rfl

theorem gapsFrom_bounds (fits : WalkFits total highest ranges) :
    ∀ gap ∈ gapsFrom total highest ranges, highest < gap.first ∧ gap.first ≤ gap.last := by
  induction ranges generalizing highest with
  | nil =>
      intro gap member
      rw [gapsFrom_nil fits] at member
      split at member
      · rw [List.mem_singleton] at member
        subst gap
        dsimp only
        omega
      · cases member
  | cons r rest ih =>
      intro gap member
      rw [gapsFrom_cons fits] at member
      rcases List.mem_append.mp member with here | later
      · split at here
        · rw [List.mem_singleton] at here
          subst gap
          dsimp only
          omega
        · cases here
      · have bounds := ih fits.tail gap later
        omega

theorem gapsFrom_apart (fits : WalkFits total highest ranges)
    (ordered : ∀ r ∈ ranges, r.first ≤ r.last) :
    (gapsFrom total highest ranges).Pairwise fun a b => a.last < b.first := by
  induction ranges generalizing highest with
  | nil =>
      rw [gapsFrom_nil fits]
      split <;> simp
  | cons r rest ih =>
      have here := ordered r List.mem_cons_self
      have later := ih fits.tail fun other member => ordered other (List.mem_cons_of_mem r member)
      rw [gapsFrom_cons fits]
      split
      · refine List.pairwise_cons.mpr ⟨?_, later⟩
        intro gap member
        have bounds := gapsFrom_bounds fits.tail gap member
        dsimp only
        omega
      · exact later

/-- The gaps hold exactly the lines above `highest` that no range holds, up to the end of the script and
of every range. -/
theorem mem_gapsFrom (fits : WalkFits total highest ranges)
    (ordered : ∀ r ∈ ranges, r.first ≤ r.last) (ascending : Ascending ranges) (line : Int) :
    (∃ gap ∈ gapsFrom total highest ranges, gap.contains line = true) ↔
      highest < line ∧ (line ≤ total ∨ ∃ r ∈ ranges, line ≤ r.last) ∧
        ∀ r ∈ ranges, r.contains line = false := by
  induction ranges generalizing highest with
  | nil =>
      rw [gapsFrom_nil fits]
      simp only [List.not_mem_nil, false_and, exists_false, or_false, false_implies, implies_true,
        and_true]
      split
      · simp only [List.mem_singleton, exists_eq_left, contains_iff]
        omega
      · simp only [List.not_mem_nil, false_and, exists_false, false_iff]
        omega
  | cons r rest ih =>
      obtain ⟨above, ascending⟩ := List.pairwise_cons.mp ascending
      have here := ordered r List.mem_cons_self
      have later := ih fits.tail (fun other member => ordered other (List.mem_cons_of_mem r member))
        ascending
      -- The gap in front of `r`, if there is one.
      have front : (∃ gap ∈ if highest + 1 < r.first then [⟨highest + 1, r.first - 1⟩] else [],
          LineRange.contains gap line = true) ↔ highest < line ∧ line < r.first := by
        split
        · simp only [List.mem_singleton, exists_eq_left, contains_iff]
          omega
        · simp only [List.not_mem_nil, false_and, exists_false, false_iff]
          omega
      rw [gapsFrom_cons fits, List.forall_mem_cons, List.exists_mem_cons_iff, contains_eq_false_iff]
      simp only [List.mem_append, or_and_right (b := _ ∈ gapsFrom _ _ _), exists_or, front, later]
      by_cases early : line < r.first
      · -- The later ranges begin no earlier than `r`, so none of them holds the line either.
        have none : ∀ other ∈ rest, other.contains line = false := by
          intro other member
          have order := above other member
          rw [contains_eq_false_iff]
          omega
        constructor
        · intro gap
          exact ⟨by omega, .inr (.inl (by omega)), by omega, none⟩
        · rintro ⟨low, _⟩
          exact .inl ⟨low, early⟩
      · constructor
        · rintro (⟨_, front⟩ | ⟨low, reach, outside⟩)
          · exact absurd front early
          · exact ⟨by omega, reach.imp_right .inr, by omega, outside⟩
        · rintro ⟨low, reach, beyond, outside⟩
          have past := beyond (by omega)
          refine .inr ⟨by omega, ?_, outside⟩
          rcases reach with inside | inside | other
          · exact .inl inside
          · omega
          · exact .inr other

/-! ### Ranges without gaps and overlaps -/

theorem gapsFrom_cons_eq_nil (fits : WalkFits total highest (r :: rest))
    (none : gapsFrom total highest (r :: rest) = []) :
    r.first ≤ highest + 1 ∧ gapsFrom total (max highest r.last) rest = [] := by
  rw [gapsFrom_cons fits, List.append_eq_nil_iff] at none
  refine ⟨?_, none.2⟩
  by_contra gap
  rw [if_pos (by omega)] at none
  cases none.1

theorem overlapsOf_cons_eq_nil (ascending : Ascending (r :: rest))
    (none : overlapsOf (r :: rest) = []) :
    (∀ other ∈ rest, r.last < other.first) ∧ overlapsOf rest = [] := by
  cases rest with
  | nil => exact ⟨fun other member => (by cases member), rfl⟩
  | cons second others =>
      rw [overlapsOf] at none
      split at none
      · cases none
      · rename_i apart
        refine ⟨?_, none⟩
        intro other member
        rcases List.mem_cons.mp member with rfl | member
        · omega
        · obtain ⟨above, _⟩ := List.pairwise_cons.mp (List.pairwise_cons.mp ascending).2
          have order := above other member
          omega

/-- Without gaps and overlaps each line lies in one range, whatever empty ranges stand between. Later
ranges begin above the lines covered so far, unless these are none. -/
theorem times_of_no_faults (fits : WalkFits total highest ranges) (ascending : Ascending ranges)
    (above : ∀ r ∈ ranges, highest < r.first ∨ highest = 0)
    (gapless : gapsFrom total highest ranges = []) (apart : overlapsOf ranges = [])
    (line : Int) (low : highest < line) (high : line ≤ total) : times ranges line = 1 := by
  induction ranges generalizing highest with
  | nil =>
      rw [gapsFrom_nil fits, if_pos (by omega)] at gapless
      cases gapless
  | cons r rest ih =>
      obtain ⟨adjacent, gapless⟩ := gapsFrom_cons_eq_nil fits gapless
      obtain ⟨after, apart⟩ := overlapsOf_cons_eq_nil ascending apart
      obtain ⟨order, ascending⟩ := List.pairwise_cons.mp ascending
      by_cases inside : line ≤ r.last
      · have none : times rest line = 0 := by
          rw [times_eq_zero_iff]
          intro other member
          have beyond := after other member
          rw [contains_eq_false_iff]
          omega
        rw [times_cons_of_contains rest (by rw [contains_iff]; omega), none]
      · rw [times_cons_of_not_contains rest (by rw [contains_eq_false_iff]; omega)]
        refine ih fits.tail ascending ?_ gapless apart (by omega)
        intro other member
        have beyond := after other member
        have start := above r List.mem_cons_self
        have sorted := order other member
        omega

theorem le_lengths_of_gapless (fits : WalkFits total highest ranges)
    (ordered : ∀ r ∈ ranges, r.first ≤ r.last) (gapless : gapsFrom total highest ranges = []) :
    total - highest ≤ lengths ranges := by
  induction ranges generalizing highest with
  | nil =>
      rw [gapsFrom_nil fits] at gapless
      split at gapless
      · cases gapless
      · rw [lengths_nil]
        omega
  | cons r rest ih =>
      obtain ⟨adjacent, gapless⟩ := gapsFrom_cons_eq_nil fits gapless
      have here := ordered r List.mem_cons_self
      have orderedLater := fun other member => ordered other (List.mem_cons_of_mem r member)
      have later := ih fits.tail orderedLater gapless
      rw [lengths_cons]
      omega

theorem tile_of_gapless (fits : WalkFits total highest ranges)
    (ordered : ∀ r ∈ ranges, r.first ≤ r.last) (gapless : gapsFrom total highest ranges = [])
    (sum : lengths ranges = total - highest) : Tile (highest + 1) total ranges := by
  induction ranges generalizing highest with
  | nil =>
      rw [lengths_nil] at sum
      change highest + 1 = total + 1
      omega
  | cons r rest ih =>
      obtain ⟨adjacent, gapless⟩ := gapsFrom_cons_eq_nil fits gapless
      have here := ordered r List.mem_cons_self
      have orderedLater := fun other member => ordered other (List.mem_cons_of_mem r member)
      have least := le_lengths_of_gapless fits.tail orderedLater gapless
      rw [lengths_cons] at sum
      have reach : max highest r.last = r.last := by omega
      rw [reach] at gapless least
      have tail := fits.tail
      rw [reach] at tail
      exact ⟨by omega, here, ih tail orderedLater gapless (by omega)⟩

theorem gapless_of_tile (fits : WalkFits total highest ranges)
    (tile : Tile (highest + 1) total ranges) :
    gapsFrom total highest ranges = [] ∧ overlapsOf ranges = [] ∧ lengths ranges = total - highest := by
  induction ranges generalizing highest with
  | nil =>
      have stop : highest + 1 = total + 1 := tile
      rw [gapsFrom_nil fits, if_neg (by omega), lengths_nil]
      exact ⟨rfl, rfl, by omega⟩
  | cons r rest ih =>
      obtain ⟨start, here, after⟩ := tile
      have reach : max highest r.last = r.last := by omega
      have tail := fits.tail
      rw [reach] at tail
      obtain ⟨gapless, apart, sum⟩ := ih tail after
      refine ⟨?_, ?_, by rw [lengths_cons]; omega⟩
      · rw [gapsFrom_cons fits, if_neg (by omega), reach, gapless]
        rfl
      · cases rest with
        | nil => rfl
        | cons second others =>
            have next : second.first = r.last + 1 := after.1
            rw [overlapsOf, if_neg (by omega), apart]

end Walk

/-! ### The check -/

theorem notAfter_iff (a b : LineRange) :
    a.notAfter b = true ↔ a.first < b.first ∨ a.first = b.first ∧ a.last ≤ b.last := by
  simp [notAfter]

theorem ofRanges_perm (ranges : List LineRange) (total : Int) :
    (ofRanges ranges total).ranges.Perm ranges :=
  List.mergeSort_perm ranges notAfter

theorem ofRanges_sorted (ranges : List LineRange) (total : Int) :
    (ofRanges ranges total).ranges.Pairwise fun a b => a.notAfter b = true := by
  apply List.pairwise_mergeSort
  · intro a b c
    simp only [notAfter_iff]
    omega
  · intro a b
    rw [Bool.or_eq_true]
    simp only [notAfter_iff]
    omega

theorem ofRanges_ascending (ranges : List LineRange) (total : Int) :
    Ascending (ofRanges ranges total).ranges := by
  apply (ofRanges_sorted ranges total).imp
  intro a b order
  rw [notAfter_iff] at order
  omega

theorem Fits.walk {ranges : List LineRange} {total : Int} (fits : Fits ranges total) :
    WalkFits total 0 (ofRanges ranges total).ranges := by
  refine ⟨Int.le_refl 0, by decide, ?_, fits.total⟩
  intro r member
  exact fits.numbers r ((ofRanges_perm ranges total).mem_iff.mp member)

theorem ofRanges_covered {ranges : List LineRange} {total : Int} (fits : Fits ranges total) :
    (ofRanges ranges total).covered = lengths (ofRanges ranges total).ranges := by
  have same : lengths (ofRanges ranges total).ranges = lengths ranges :=
    ((ofRanges_perm ranges total).map _).sum_eq
  have folded := foldl_size (ofRanges ranges total).ranges 0
  rw [Int.zero_add, same, wrap64_eq_self _ fits.lengths.1 fits.lengths.2] at folded
  rw [same]
  exact folded

theorem isPerfect_iff {ranges : List LineRange} {total : Int} (fits : Fits ranges total) :
    (ofRanges ranges total).isPerfect = true ↔
      gapsFrom total 0 (ofRanges ranges total).ranges = [] ∧
        overlapsOf (ofRanges ranges total).ranges = [] ∧
        lengths (ofRanges ranges total).ranges = total := by
  rw [isPerfect, ofRanges_covered fits]
  simp [ofRanges, and_assoc]

def lastLine (ranges : List LineRange) (total : Int) : Int :=
  ranges.foldl (fun last r => max last r.last) total

theorem le_lastLine_iff (ranges : List LineRange) (total line : Int) :
    line ≤ lastLine ranges total ↔ line ≤ total ∨ ∃ r ∈ ranges, line ≤ r.last := by
  rw [lastLine]
  induction ranges generalizing total with
  | nil => simp
  | cons r rest ih =>
      have step : line ≤ max total r.last ↔ line ≤ total ∨ line ≤ r.last := by omega
      rw [List.foldl_cons, ih, List.exists_mem_cons_iff, step, or_assoc]

/-- A perfect report means that every line of the script lies in exactly one range, even among
malformed ranges. For ranges in order it means in addition that none leaves the script, and the gaps are
then exactly the lines in no range, in ascending pieces. -/
theorem ofRanges_exact (ranges : List LineRange) (total : Int) (nonneg : 0 ≤ total)
    (fits : Fits ranges total) :
    ((ofRanges ranges total).isPerfect = true →
      ∀ line, 1 ≤ line → line ≤ total → times ranges line = 1) ∧
    ((∀ r ∈ ranges, r.first ≤ r.last) →
      ((ofRanges ranges total).isPerfect = true ↔
        (∀ line, 1 ≤ line → line ≤ total → times ranges line = 1) ∧
          ∀ r ∈ ranges, ∀ line, r.contains line = true → 1 ≤ line ∧ line ≤ total) ∧
      (∀ gap ∈ (ofRanges ranges total).gaps, gap.first ≤ gap.last) ∧
      ((ofRanges ranges total).gaps.Pairwise fun a b => a.last < b.first) ∧
      ∀ line, (∃ gap ∈ (ofRanges ranges total).gaps, gap.contains line = true) ↔
        1 ≤ line ∧ line ≤ lastLine ranges total ∧ times ranges line = 0) := by
  have perm := ofRanges_perm ranges total
  have ascending := ofRanges_ascending ranges total
  have walk := fits.walk
  have times_eq : ∀ line, times ranges line = times (ofRanges ranges total).ranges line :=
    fun line => (perm.countP_eq _).symm
  have covered : (ofRanges ranges total).isPerfect = true →
      ∀ line, 1 ≤ line → line ≤ total → times ranges line = 1 := by
    intro perfect line low high
    obtain ⟨gapless, apart, _⟩ := (isPerfect_iff fits).mp perfect
    rw [times_eq]
    exact times_of_no_faults walk ascending (fun r _ => .inr rfl) gapless apart line (by omega) high
  refine ⟨covered, ?_⟩
  intro ordered
  have orderedSorted : ∀ r ∈ (ofRanges ranges total).ranges, r.first ≤ r.last :=
    fun r member => ordered r (perm.mem_iff.mp member)
  refine ⟨⟨?_, ?_⟩, ?_, ?_, ?_⟩
  · intro perfect
    refine ⟨covered perfect, ?_⟩
    obtain ⟨gapless, _, sum⟩ := (isPerfect_iff fits).mp perfect
    have tile := tile_of_gapless walk orderedSorted gapless (by omega)
    intro r member line inside
    have bounds := tile.bounds.2 r (perm.mem_iff.mpr member)
    rw [contains_iff] at inside
    omega
  · rintro ⟨once, within⟩
    have tile : Tile 1 total (ofRanges ranges total).ranges := by
      apply tile_of_times 1 total _ (by omega) orderedSorted ascending
      · intro line low high
        rw [← times_eq]
        exact once line low high
      · intro r member
        have order := orderedSorted r member
        have inside := within r (perm.mem_iff.mp member)
        have first := inside r.first (by rw [contains_iff]; omega)
        have last := inside r.last (by rw [contains_iff]; omega)
        omega
    obtain ⟨gapless, apart, sum⟩ := gapless_of_tile walk tile
    exact (isPerfect_iff fits).mpr ⟨gapless, apart, by omega⟩
  · exact fun gap member => (gapsFrom_bounds walk gap member).2
  · exact gapsFrom_apart walk orderedSorted
  · intro line
    have gaps := mem_gapsFrom walk orderedSorted ascending line
    rw [← times_eq_zero_iff, ← times_eq] at gaps
    rw [le_lastLine_iff]
    simp only [perm.mem_iff] at gaps
    exact gaps

/-- An empty range between two halves changes nothing, and a missing line is reported as a gap. -/
theorem ofRanges_exact_halves :
    (Fits [⟨4, 6⟩, ⟨4, 3⟩, ⟨1, 3⟩] 6 ∧
      (ofRanges [⟨4, 6⟩, ⟨4, 3⟩, ⟨1, 3⟩] 6).isPerfect = true ∧
      ∀ line, 1 ≤ line → line ≤ 6 → times [⟨4, 6⟩, ⟨4, 3⟩, ⟨1, 3⟩] line = 1) ∧
    (Fits [⟨4, 6⟩, ⟨1, 2⟩] 6 ∧ (∀ r ∈ [LineRange.mk 4 6, ⟨1, 2⟩], r.first ≤ r.last) ∧
      (∃ gap ∈ (ofRanges [⟨4, 6⟩, ⟨1, 2⟩] 6).gaps, gap.contains 3 = true)) := by
  have halves : Fits [⟨4, 6⟩, ⟨4, 3⟩, ⟨1, 3⟩] 6 := ⟨by decide, by decide, by decide⟩
  have broken : Fits [⟨4, 6⟩, ⟨1, 2⟩] 6 := ⟨by decide, by decide, by decide⟩
  have ordered : ∀ r ∈ [LineRange.mk 4 6, ⟨1, 2⟩], r.first ≤ r.last := by decide
  have perfect : (ofRanges [⟨4, 6⟩, ⟨4, 3⟩, ⟨1, 3⟩] 6).isPerfect = true := by cbv
  refine ⟨⟨halves, perfect, ?_⟩, broken, ordered, ?_⟩
  · exact (ofRanges_exact _ 6 (by decide) halves).1 perfect
  · exact (((ofRanges_exact _ 6 (by decide) broken).2 ordered).2.2.2 3).mpr (by decide)

end Coverage

end ScriptAtlas
