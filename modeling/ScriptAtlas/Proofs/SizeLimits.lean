import ScriptAtlas.Proofs.ChunkViews
import ScriptAtlas.Proofs.DivisionDepth
import ScriptAtlas.Proofs.QuietChunks

/-!
What the limits of a sizing mean for its chunks. No part of a divided block is shorter than the minimum,
wherever it stands in the block and however deep it was cut. The hybrid strategy is the size-constrained
one under the lower of its two line ceilings.
-/

namespace ScriptAtlas

/-! ### The least number of lines -/

theorem Tiles.shorter {lo hi : Nat} {spans : List (Nat × Nat)} (tiles : Tiles lo hi spans)
    (several : 2 ≤ spans.length) : ∀ span ∈ spans, span.2 - span.1 < hi - lo := by
  cases spans with
  | nil => simp at several
  | cons first rest =>
      obtain ⟨start, nonempty, after⟩ := tiles
      cases rest with
      | nil => simp at several
      | cons second others =>
          intro span member
          rcases List.mem_cons.mp member with rfl | later
          · have next := after.mem_bounds second List.mem_cons_self
            omega
          · have inside := after.mem_bounds span later
            omega

namespace Divider

/-- A division into several parts leaves none of them shorter than the minimum, at whatever depth. -/
theorem divide_several_least (d : Divider) (positive : 0 < d.sizing.min) (budget lo hi : Nat)
    (room : lo < hi) (several : 2 ≤ (d.divide budget lo hi).1.length) :
    ∀ part ∈ (d.divide budget lo hi).1, d.sizing.min ≤ (part.stop : Int) - part.start := by
  intro part member
  have tiles := d.divide_tiles budget lo hi positive room
  have shorter := tiles.shorter (by rwa [List.length_map]) part.span (List.mem_map_of_mem member)
  rcases d.divide_least budget lo hi part member with whole | least
  · rw [whole] at shorter
    exact absurd shorter (Nat.lt_irrefl _)
  · exact least

end Divider

/-- Every chunk that is part of a divided block has at least the minimum of lines, the first and the
last of the parts as well as those between them. -/
theorem chunkLines_parts_least (lines : List Text) (z : Sizing) :
    ∀ c ∈ chunkLines lines z, c.part ≠ none →
      z.normalized.min ≤ c.stop - c.start + 1 ∧
        c.stop - c.start + 1 = (c.sourceLines lines).length := by
  intro c member isPart
  obtain ⟨b, inPlan, d, inside, same⟩ := Script.mem_chunks member
  have view := congrArg (fun c : Chunk => (c.start, c.stop, c.part)) same
  simp only [Chunk.unlinked, Prod.mk.injEq] at view
  obtain ⟨start, stop, part⟩ := view
  obtain ⟨room, below⟩ := Script.mem_plan_bounds (Script.ofLines lines) b inPlan
  have positive := z.normalized_min_pos
  have parted : d ≠ Chunk.ofLines (Script.ofLines lines) b.start b.stop := by
    rintro rfl
    exact isPart part
  obtain ⟨-, several, -, p, isParts, first, last⟩ :=
    (Divider.chunksOf_whole_or_part _ b d inside).resolve_left parted
  have least := Divider.divide_several_least ⟨z.normalized, Script.ofLines lines⟩ positive _ b.start
    b.stop room several p isParts
  have tiles := Divider.parts_tiles ⟨z.normalized, Script.ofLines lines⟩ b.start b.stop positive room
  have bounds := tiles.mem_bounds p.span (List.mem_map_of_mem isParts)
  simp only [Block.span] at bounds least
  rw [Script.ofLines_size] at below
  constructor
  · omega
  · rw [Chunk.sourceLines, List.length_take, List.length_drop]
    omega

/-- A branch of four lines is cut in the middle when parts need two lines, though one is the target. -/
theorem chunkLines_parts_least_branch :
    let lines : List Text := ["IF @a = 1", "BEGIN", "SELECT 1", "END"]
    let z : Sizing := { target := 1, min := 2, max := 2 }
    ∃ c ∈ chunkLines lines z, c.part ≠ none ∧ 2 ≤ c.stop - c.start + 1 := by
  intro lines z
  have cut : ∃ c ∈ chunkLines lines z, c.part ≠ none := by decide +kernel
  obtain ⟨c, member, isPart⟩ := cut
  exact ⟨c, member, isPart, (chunkLines_parts_least lines z c member isPart).1⟩

/-! ### One ceiling for two -/

namespace Chunk

def unreasoned (c : Chunk) : Chunk :=
  { c with part := c.part.map fun p => { p with reason := [] } }

theorem isContinuedBy_unreasoned (c next : Chunk) :
    c.unreasoned.isContinuedBy next.unreasoned = c.isContinuedBy next := by
  simp only [isContinuedBy, unreasoned]
  cases c.part <;> cases next.part <;> rfl

theorem unreasoned_overlooked : Overlooked unreasoned where
  id _ := rfl
  numbered _ _ := rfl
  placed previous c next := by
    cases previous <;> cases next <;>
      simp only [Option.map_none, Option.map_some, withNeighbours, isContinuedBy_unreasoned] <;> rfl
  declared _ := rfl
  needed _ _ := rfl
  linked _ _ := rfl
  described c := by
    have title : c.unreasoned.titleOf = c.titleOf := by
      simp only [titleOf, focus, unreasoned]
      cases c.part <;> rfl
    have sentences : c.unreasoned.sentences = c.sentences := by
      simp only [Chunk.sentences, unreasoned]
      cases c.part <;> rfl
    simp only [described, summaryOf, title, sentences]
    simp only [unreasoned, Option.map_map]
    rfl

end Chunk

namespace Divider

theorem partChunks_unreasoned (d : Divider) (part : Part) (ordinal : Int) (parts : List Block) :
    (d.partChunks part ordinal parts).map Chunk.unreasoned =
      d.partChunks { part with reason := [] } ordinal parts := by
  induction parts generalizing ordinal with
  | nil => rfl
  | cons p rest ih =>
      rw [partChunks, partChunks, List.map_cons, ih]
      rfl

/-- Dividers that cut alike, and equally often, differ only in the reasons that they give. -/
theorem Alike.chunksOf {d d' : Divider} (alike : Alike d d') (depth : d.sizing.depth = d'.sizing.depth)
    (b : Block) : (d.chunksOf b).map Chunk.unreasoned = (d'.chunksOf b).map Chunk.unreasoned := by
  have parts : d.parts b.start b.stop = d'.parts b.start b.stop := by
    rw [Divider.parts, Divider.parts, depth, alike.divide]
  have chunks : ∀ part ordinal blocks,
      d.partChunks part ordinal blocks = d'.partChunks part ordinal blocks := by
    intro part ordinal blocks
    induction blocks generalizing ordinal with
    | nil => rfl
    | cons p rest ih => rw [partChunks, partChunks, ih, alike.script]
  rw [Divider.chunksOf, Divider.chunksOf, alike.oversized, parts, alike.script]
  split
  · rfl
  · dsimp only
    split
    · rfl
    · rw [partChunks_unreasoned, partChunks_unreasoned, chunks]

end Divider

theorem Script.chunks_unreasoned (s : Script) (z z' : Sizing)
    (alike : Divider.Alike ⟨z.normalized, s⟩ ⟨z'.normalized, s⟩)
    (depth : z.normalized.depth = z'.normalized.depth) :
    (s.chunks z).map Chunk.unreasoned = (s.chunks z').map Chunk.unreasoned := by
  apply Chunk.unreasoned_overlooked.chunks_eq
  rw [List.map_flatMap, List.map_flatMap]
  congr 1
  funext b
  exact alike.chunksOf depth b

theorem hybrid_alike (s : Script) (z : Sizing) (ceiling : 0 < z.max) (threshold : 0 < z.force) :
    Divider.Alike ⟨({ z with strategy := .hybrid } : Sizing).normalized, s⟩
      ⟨({ z with strategy := .sizeConstrained, max := min z.max z.force } : Sizing).normalized, s⟩ := by
  refine ⟨rfl, rfl, rfl, rfl, ?_⟩
  intro lo hi
  have lower : ¬ min z.max z.force ≤ 0 := by omega
  have either : ∀ count : Int, (decide (count > z.max) || decide (count > z.force)) =
      decide (count > min z.max z.force) := by
    intro count
    rw [← Bool.decide_or]
    exact decide_eq_decide.mpr (by omega)
  simp only [Divider.isOversized, Sizing.normalized, reduceCtorEq, if_false, if_neg lower,
    if_neg (Int.not_le.mpr ceiling), if_neg (Int.not_le.mpr threshold), decide_true, decide_false,
    Bool.true_and, Bool.false_and, Bool.or_false, either]

/-- Under the hybrid strategy a script has the chunks that it has under the size-constrained strategy
with the lower of the two line ceilings, but for the reasons of divisions. A threshold that is not below
the maximum has no effect on the chunks. -/
theorem hybrid_lower_ceiling (lines : List Text) (z : Sizing) (ceiling : 0 < z.max)
    (threshold : 0 < z.force) :
    (chunkLines lines { z with strategy := .hybrid }).map Chunk.unreasoned =
        (chunkLines lines { z with strategy := .sizeConstrained, max := min z.max z.force }).map
          Chunk.unreasoned ∧
      (z.max ≤ z.force → ∀ force, z.max ≤ force →
        (chunkLines lines { z with strategy := .hybrid }).map Chunk.unreasoned =
          (chunkLines lines { z with strategy := .hybrid, force := force }).map Chunk.unreasoned) := by
  have constrained : ∀ force, 0 < force →
      (chunkLines lines { z with strategy := .hybrid, force := force }).map Chunk.unreasoned =
        (chunkLines lines { z with strategy := .sizeConstrained, max := min z.max force, force := force }).map
          Chunk.unreasoned :=
    fun force positive => Script.chunks_unreasoned _ _ _
      (hybrid_alike (Script.ofLines lines) { z with force := force } ceiling positive) rfl
  refine ⟨constrained z.force threshold, ?_⟩
  intro above force higher
  have unread : Divider.Alike
      ⟨({ z with strategy := .sizeConstrained, max := z.max } : Sizing).normalized, Script.ofLines lines⟩
      ⟨({ z with strategy := .sizeConstrained, max := z.max, force := force } : Sizing).normalized,
        Script.ofLines lines⟩ := ⟨rfl, rfl, rfl, rfl, fun _ _ => rfl⟩
  have first := constrained z.force threshold
  have second := constrained force (by omega)
  rw [Int.min_eq_left above] at first
  rw [Int.min_eq_left higher] at second
  calc
    (chunkLines lines { z with strategy := .hybrid }).map Chunk.unreasoned = _ := first
    _ = _ := Script.chunks_unreasoned _ _ _ unread rfl
    _ = _ := second.symm

theorem hybrid_lower_ceiling_branch :
    let lines : List Text := ["IF @a = 1", "BEGIN", "SELECT 1", "END"]
    let z : Sizing := { target := 1, min := 1, max := 3, force := 2 }
    (0 < z.max ∧ 0 < z.force) ∧
      Chunk.boundaries (chunkLines lines { z with strategy := .hybrid }) = [2] ∧
      (chunkLines lines { z with strategy := .hybrid }).map Chunk.unreasoned =
        (chunkLines lines { z with strategy := .sizeConstrained, max := 2 }).map Chunk.unreasoned := by
  intro lines z
  have positive : 0 < z.max ∧ 0 < z.force := by decide
  exact ⟨positive, by decide +kernel, (hybrid_lower_ceiling lines z positive.1 positive.2).1⟩

end ScriptAtlas
