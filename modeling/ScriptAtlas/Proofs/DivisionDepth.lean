import Mathlib.Data.List.Flatten
import ScriptAtlas.Proofs.Boundary

/-!
How deep a division goes. Where lines are cut depends on their place and on the sizing, not on how often they may
be divided again. So a deeper division keeps all boundaries of a shallower one, and a division that may go as deep
as there are lines ends only at parts that are small enough or have no place for a cut.
-/

namespace ScriptAtlas

/-! ### Dividers that cut alike -/

theorem Script.statementPoints_congr (s : Script) (z z' : Sizing) (target : z.target = z'.target) (lo hi : Nat) :
    s.statementPoints z lo hi = s.statementPoints z' lo hi := by
  have follow : ∀ (places : List Nat) (last : Nat),
      statementPoints.follow s z last places = statementPoints.follow s z' last places := by
    intro places
    induction places with
    | nil => exact fun _ => rfl
    | cons i rest ih =>
        intro last
        rw [statementPoints.follow, statementPoints.follow, target, ih, ih]
  exact follow _ lo

namespace Divider

/-- Dividers of one script that call the same lines oversized and place cuts by the same numbers. They may
differ in their ceilings and in how often they divide. -/
structure Alike (d d' : Divider) : Prop where
  script : d.script = d'.script
  target : d.sizing.target = d'.sizing.target
  min : d.sizing.min = d'.sizing.min
  complexity : d.sizing.complexity = d'.sizing.complexity
  oversized : ∀ lo hi, d.isOversized lo hi = d'.isOversized lo hi

section Alike

variable {d d' : Divider} (alike : Alike d d') (lo hi : Nat)
include alike

theorem Alike.proposed (source : CutSource) :
    d.script.proposed d.sizing source lo hi = d'.script.proposed d'.sizing source lo hi := by
  rw [alike.script]
  cases source with
  | sections | business | nesting | branches => rfl
  | groups => simp only [Script.proposed, Script.groupPoints, alike.complexity, alike.target]
  | statements => exact d'.script.statementPoints_congr d.sizing d'.sizing alike.target lo hi
  | forced => simp only [Script.proposed, Script.forcedPoints, alike.complexity, alike.target, alike.min]

theorem Alike.consult (cuts : Cuts) (source : CutSource) :
    d.consult lo hi cuts source = d'.consult lo hi cuts source := by
  rw [Divider.consult, Divider.consult, alike.proposed, alike.script]

theorem Alike.spaced (cuts : Cuts) : d.spaced lo hi cuts = d'.spaced lo hi cuts := by
  rw [Divider.spaced, Divider.spaced, alike.min]

theorem Alike.anyOversized (points : List Nat) : d.anyOversized hi lo points = d'.anyOversized hi lo points := by
  induction points generalizing lo with
  | nil => exact alike.oversized lo hi
  | cons p rest ih => rw [Divider.anyOversized, Divider.anyOversized, alike.oversized, ih]

theorem Alike.consultWhileOversized (sources : List CutSource) (cuts : Cuts) :
    d.consultWhileOversized lo hi sources cuts = d'.consultWhileOversized lo hi sources cuts := by
  induction sources generalizing cuts with
  | nil => rfl
  | cons source rest ih =>
      rw [Divider.consultWhileOversized, Divider.consultWhileOversized, alike.spaced, alike.anyOversized,
        alike.consult, ih]

theorem Alike.settledCuts : d.settledCuts lo hi = d'.settledCuts lo hi := by
  have consult : d.consult lo hi = d'.consult lo hi := funext₂ (alike.consult lo hi)
  rw [Divider.settledCuts, Divider.settledCuts, consult, alike.consultWhileOversized, alike.script,
    alike.complexity]

theorem Alike.cutPoints : d.cutPoints lo hi = d'.cutPoints lo hi := by
  rw [Divider.cutPoints, Divider.cutPoints, alike.settledCuts, alike.spaced]

theorem Alike.divide (budget : Nat) : d.divide budget lo hi = d'.divide budget lo hi := by
  induction budget generalizing lo hi with
  | zero => rw [Divider.divide, Divider.divide, alike.script]
  | succ budget ih =>
      rw [Divider.divide, Divider.divide, alike.script, alike.oversized, alike.cutPoints]
      simp only [ih, alike.oversized]

end Alike

/-! ### Deeper divisions -/

theorem pieces_begin_of (d : Divider) (budget : Nat) (part : Nat × Nat)
    (begins : ∃ rest, (d.divide budget part.1 part.2).1.map Block.start = part.1 :: rest) :
    ∃ rest, (d.pieces budget part).map Block.start = part.1 :: rest := by
  rw [pieces]
  split
  · exact begins
  · exact ⟨[], rfl⟩

theorem divide_begins (d : Divider) (budget lo hi : Nat) :
    ∃ rest, (d.divide budget lo hi).1.map Block.start = lo :: rest := by
  induction budget generalizing lo hi with
  | zero => exact ⟨[], rfl⟩
  | succ budget ih =>
      rw [divide_succ_parts]
      split
      · exact ⟨[], rfl⟩
      · obtain ⟨stop, others, between⟩ : ∃ stop others,
            partsBetween hi lo (d.cutPoints lo hi).1 = (lo, stop) :: others := by
          cases (d.cutPoints lo hi).1 with
          | nil => exact ⟨hi, [], rfl⟩
          | cons p rest => exact ⟨p, _, rfl⟩
        obtain ⟨rest, first⟩ := d.pieces_begin_of budget (lo, stop) (ih lo stop)
        rw [between, List.flatMap_cons, List.map_append, first]
        exact ⟨_, rfl⟩

/-- A part that is cut into several by a division is cut at these places by a deeper one, too. -/
theorem divide_starts_sublist (d : Divider) (budget more lo hi : Nat) (deeper : budget ≤ more) :
    ((d.divide budget lo hi).1.map Block.start).Sublist ((d.divide more lo hi).1.map Block.start) := by
  induction budget generalizing more lo hi with
  | zero =>
      obtain ⟨rest, begins⟩ := d.divide_begins more lo hi
      rw [begins]
      exact List.singleton_sublist.mpr List.mem_cons_self
  | succ budget ih =>
      obtain ⟨more, rfl⟩ : ∃ k, more = k + 1 := ⟨more - 1, by omega⟩
      rw [divide_succ_parts, divide_succ_parts]
      split
      · exact List.Sublist.refl _
      · rw [List.map_flatMap, List.map_flatMap]
        refine List.Sublist.flatMap_right _ fun part _ => ?_
        have finer := ih more part.1 part.2 (by omega)
        have count := finer.length_le
        rw [List.length_map, List.length_map] at count
        obtain ⟨rest, begins⟩ := d.pieces_begin_of more part (d.divide_begins more part.1 part.2)
        rw [pieces]
        split
        · rename_i several
          rw [Bool.and_eq_true, decide_eq_true_eq] at several
          rw [pieces, if_pos]
          · exact finer
          · rw [Bool.and_eq_true, decide_eq_true_eq]
            exact ⟨several.1, by omega⟩
        · rw [begins]
          exact List.singleton_sublist.mpr List.mem_cons_self

theorem Alike.spans_sublist {d d' : Divider} (alike : Alike d d') (deeper : d.sizing.depth ≤ d'.sizing.depth)
    (b : Block) : ((d.spans b).map Prod.fst).Sublist ((d'.spans b).map Prod.fst) := by
  have places : ∀ parts : List Block, (parts.map Block.span).map Prod.fst = parts.map Block.start :=
    fun parts => List.map_map
  have finer : ((d.parts b.start b.stop).1.map Block.start).Sublist
      ((d'.parts b.start b.stop).1.map Block.start) := by
    rw [parts, parts, alike.divide]
    exact d'.divide_starts_sublist _ _ b.start b.stop (Int.toNat_le_toNat deeper)
  have count := finer.length_le
  rw [List.length_map, List.length_map] at count
  rw [Divider.spans, Divider.spans, alike.oversized]
  split
  · exact List.Sublist.refl _
  · split
    · split
      · exact List.Sublist.refl _
      · obtain ⟨rest, begins⟩ := d'.divide_begins d'.sizing.depth.toNat b.start b.stop
        rw [places, parts, begins]
        exact List.singleton_sublist.mpr List.mem_cons_self
    · rw [if_neg (by omega), places, places]
      exact finer

end Divider

/-- When parts may be divided again more often, the chunks of a script are cut wherever they were before, and
perhaps in more places. -/
theorem deeper_refines (lines : List Text) (z : Sizing) (depth deeper : Int) (positive : 1 ≤ depth)
    (more : depth ≤ deeper) :
    (Chunk.boundaries (chunkLines lines { z with depth := depth })).Sublist
      (Chunk.boundaries (chunkLines lines { z with depth := deeper })) := by
  have alike : Divider.Alike ⟨({ z with depth := depth } : Sizing).normalized, Script.ofLines lines⟩
      ⟨({ z with depth := deeper } : Sizing).normalized, Script.ofLines lines⟩ :=
    ⟨rfl, rfl, rfl, rfl, fun _ _ => rfl⟩
  have kept : ∀ d : Int, 1 ≤ d → ({ z with depth := d } : Sizing).normalized.depth = d :=
    fun d low => if_neg (by simp only; omega)
  rw [chunkLines, chunkLines, Chunk.boundaries_eq _ _ _ (Script.chunks_lines _ _),
    Chunk.boundaries_eq _ _ _ (Script.chunks_lines _ _), List.map_tail, List.map_tail]
  refine List.Sublist.tail ?_
  rw [Script.spans, Script.spans, List.map_flatMap, List.map_flatMap]
  refine List.Sublist.flatMap_right _ fun b _ => alike.spans_sublist ?_ b
  rw [kept depth positive, kept deeper (by omega)]
  exact more

theorem deeper_refines_branch :
    let lines : List Text := ["IF 1 = 1", "BEGIN", "SELECT 1", "END"]
    let z : Sizing := { target := 1, min := 1, max := 2 }
    Chunk.boundaries (chunkLines lines { z with depth := 1 }) = [2] ∧
      2 ∈ Chunk.boundaries (chunkLines lines { z with depth := 3 }) := by
  intro lines z
  have once : Chunk.boundaries (chunkLines lines { z with depth := 1 }) = [2] := by decide +kernel
  have kept := deeper_refines lines z 1 3 (by decide) (by decide)
  rw [once] at kept
  exact ⟨once, List.singleton_sublist.mp kept⟩

/-! ### Divisions that need not stop early -/

namespace Divider

/-- Lines that break no ceiling or have no place left for a cut. -/
def Exhausted (d : Divider) (lo hi : Nat) : Prop :=
  d.isOversized lo hi = true → (d.cutPoints lo hi).1 = []

theorem exhausted_iff (d : Divider) (lo hi : Nat) :
    d.Exhausted lo hi ↔ d.isOversized lo hi = false ∨ (d.cutPoints lo hi).1 = [] := by
  rw [Exhausted, ← Bool.not_eq_true]
  exact imp_iff_not_or

theorem parts_shorter (d : Divider) (positive : 0 < d.sizing.min) (lo hi : Nat) (room : lo < hi)
    (cut : (d.cutPoints lo hi).1 ≠ []) :
    ∀ part ∈ partsBetween hi lo (d.cutPoints lo hi).1, part.1 < part.2 ∧ part.2 - part.1 < hi - lo := by
  have outer := d.cutPoints_tiles lo hi positive room
  cases points : (d.cutPoints lo hi).1 with
  | nil => exact absurd points cut
  | cons p rest =>
      rw [points] at outer
      obtain ⟨-, above, after⟩ := outer
      have below := (CutRange.isSafe_bounds _ p
        (mem_cutPoints_isSafe d lo hi p (points ▸ List.mem_cons_self))).2
      intro part member
      rw [partsBetween] at member
      rcases List.mem_cons.mp member with rfl | later
      · exact ⟨above, by simp only at below ⊢; omega⟩
      · have bounds := after.mem_bounds part later
        simp only at above bounds
        omega

/-- A division that may go as deep as there are lines leaves only parts that are exhausted. -/
theorem divide_exhausted (d : Divider) (positive : 0 < d.sizing.min) (budget lo hi : Nat) (room : lo < hi)
    (deep : hi - lo ≤ budget) : ∀ part ∈ (d.divide budget lo hi).1, d.Exhausted part.start part.stop := by
  induction budget generalizing lo hi with
  | zero => omega
  | succ budget ih =>
      intro part member
      rw [divide_succ_parts] at member
      split at member
      · rename_i whole
        rw [List.mem_singleton.mp member]
        exact (d.exhausted_iff lo hi).mpr whole
      · rename_i several
        obtain ⟨outer, isOuter, inside⟩ := List.mem_flatMap.mp member
        obtain ⟨nonempty, shorter⟩ :=
          d.parts_shorter positive lo hi room (fun none => several (.inr none)) outer isOuter
        have exhausted := ih outer.1 outer.2 nonempty (by omega)
        rw [pieces] at inside
        split at inside
        · exact exhausted part inside
        · rename_i single
          rw [List.mem_singleton.mp inside]
          intro oversized
          -- the lines stay whole, since dividing them gives one part with all of them
          have few : ((d.divide budget outer.1 outer.2).1.map Block.span).length < 2 := by
            rw [Bool.and_eq_true, decide_eq_true_eq, not_and] at single
            have count := single oversized
            rw [List.length_map]
            omega
          have only := (d.divide_tiles budget outer.1 outer.2 positive nonempty).eq_single nonempty few
          obtain ⟨whole, isPart, same⟩ := List.mem_map.mp (only ▸ List.mem_singleton_self (outer.1, outer.2))
          have ends := Prod.mk.inj same
          have here := exhausted whole isPart
          rw [ends.1, ends.2] at here
          exact here oversized

theorem divide_of_exhausted (d : Divider) (budget lo hi : Nat) (exhausted : d.Exhausted lo hi) :
    d.divide budget lo hi = ([d.script.block lo hi .sequence], []) := by
  cases budget with
  | zero => rfl
  | succ budget =>
      rw [divide]
      split
      · rfl
      · rename_i oversized
        dsimp only
        rw [exhausted (by simpa using oversized)]
        rfl

theorem partsBetween_length (hi last : Nat) (points : List Nat) :
    (partsBetween hi last points).length = points.length + 1 := by
  induction points generalizing last with
  | nil => rfl
  | cons p rest ih => rw [partsBetween, List.length_cons, ih, List.length_cons]

theorem exhausted_of_parts (d : Divider) (lo hi : Nat) (deep : 1 ≤ d.sizing.depth)
    (whole : d.parts lo hi = ([d.script.block lo hi .sequence], [])) : d.Exhausted lo hi := by
  have count := (d.divide_starts_sublist 1 d.sizing.depth.toNat lo hi (by omega)).length_le
  rw [← parts, whole, List.length_map, List.length_map, divide_succ_parts] at count
  split at count
  · rename_i stays
    exact (d.exhausted_iff lo hi).mpr stays
  · have single : d.pieces 0 = fun part => [d.script.block part.1 part.2 .sequence] := by
      funext part
      rw [pieces, divide_zero_parts, ite_self]
    rw [single, ← List.map_eq_flatMap, List.length_map, partsBetween_length, List.length_singleton] at count
    exact (d.exhausted_iff lo hi).mpr (.inr (List.length_eq_zero_iff.mp (by omega)))

theorem spans_exhausted (d : Divider) (positive : 0 < d.sizing.min) (b : Block) (room : b.start < b.stop)
    (deep : (b.stop : Int) - b.start ≤ d.sizing.depth) : ∀ span ∈ d.spans b, d.Exhausted span.1 span.2 := by
  have exhausted := d.divide_exhausted positive d.sizing.depth.toNat b.start b.stop room (by omega)
  have tiles := d.parts_tiles b.start b.stop positive room
  intro span member
  rw [spans] at member
  split at member
  · rename_i small
    rw [Bool.not_eq_true'] at small
    rw [List.mem_singleton.mp member]
    exact (d.exhausted_iff b.start b.stop).mpr (.inl small)
  · -- a block that stays whole is the only part of its division
    have inParts : span ∈ (d.parts b.start b.stop).1.map Block.span := by
      split at member
      · rename_i few
        rw [tiles.eq_single room (by rwa [List.length_map])]
        exact member
      · exact member
    obtain ⟨part, isPart, rfl⟩ := List.mem_map.mp inParts
    exact exhausted part isPart

end Divider

theorem Sizing.normalized_depth (z : Sizing) : 1 ≤ z.normalized.depth ∧ z.depth ≤ z.normalized.depth := by
  simp only [normalized, default]
  split <;> omega

/-- When parts may be divided again as often as the script has lines, a chunk is oversized only if no cut is left
for its lines. Lines without a cut are exactly those that a division leaves whole, so each chunk divided by itself
is that chunk again. -/
theorem chunkLines_exhausted (lines : List Text) (z : Sizing) (deep : (lines.length : Int) ≤ z.depth) :
    let d : Divider := ⟨z.normalized, Script.ofLines lines⟩
    (∀ c ∈ chunkLines lines z, ∃ lo hi : Nat, c.start = lo + 1 ∧ c.stop = hi ∧ lo < hi ∧
      (d.isOversized lo hi = true → (d.cutPoints lo hi).1 = []) ∧
      ∀ kind, d.chunksOf (d.script.block lo hi kind) = [Chunk.ofLines d.script lo hi]) ∧
    ∀ lo hi : Nat, (d.isOversized lo hi = true → (d.cutPoints lo hi).1 = []) ↔
      d.parts lo hi = ([d.script.block lo hi .sequence], []) := by
  intro d
  have positive : 0 < d.sizing.min := z.normalized_min_pos
  have depth : 1 ≤ d.sizing.depth ∧ z.depth ≤ d.sizing.depth := z.normalized_depth
  refine ⟨?_, fun lo hi => ⟨d.divide_of_exhausted _ lo hi, d.exhausted_of_parts lo hi depth.1⟩⟩
  intro c member
  obtain ⟨k, here⟩ := List.mem_iff_getElem?.mp member
  obtain ⟨span, found, start, stop, _⟩ := Script.chunks_getElem (Script.ofLines lines) z k c here
  obtain ⟨b, inPlan, inSpans⟩ := List.mem_flatMap.mp (List.mem_of_getElem? found)
  obtain ⟨room, inside⟩ := Script.mem_plan_bounds (Script.ofLines lines) b inPlan
  rw [Script.ofLines_size] at inside
  have exhausted := d.spans_exhausted positive b room (by omega) span inSpans
  have nonempty := ((d.spans_tiles b positive room).mem_bounds span inSpans).2.1
  refine ⟨span.1, span.2, start, stop, nonempty, exhausted, fun kind => ?_⟩
  rw [Divider.chunksOf]
  split
  · rfl
  · rw [Script.block, Divider.parts, d.divide_of_exhausted _ span.1 span.2 exhausted]
    rfl

/-- A statement of three lines stays whole although two are the maximum. -/
theorem chunkLines_exhausted_statement :
    let lines : List Text := ["SELECT 1,", "2,", "3"]
    let z : Sizing := { target := 1, min := 1, max := 2, depth := 3 }
    let d : Divider := ⟨z.normalized, Script.ofLines lines⟩
    (lines.length : Int) ≤ z.depth ∧ d.isOversized 0 3 = true ∧ (d.cutPoints 0 3).1 = [] ∧
      ∃ c ∈ chunkLines lines z, c.start = 1 ∧ c.stop = 3 := by
  intro lines z d
  have whole : ∃ c ∈ chunkLines lines z, c.start = 1 ∧ c.stop = 3 := by decide +kernel
  have oversized : d.isOversized 0 3 = true := by decide +kernel
  obtain ⟨c, member, first, last⟩ := whole
  obtain ⟨lo, hi, start, stop, _, settled, _⟩ := (chunkLines_exhausted lines z (by decide)).1 c member
  obtain rfl : lo = 0 := by omega
  obtain rfl : hi = 3 := by omega
  exact ⟨by decide, oversized, settled oversized, c, member, first, last⟩

end ScriptAtlas
