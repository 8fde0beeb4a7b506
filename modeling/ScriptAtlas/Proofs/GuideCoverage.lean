import ScriptAtlas.Proofs.GuideRanges

/-!
A guide checked from its text alone. The ranges read off the guide of a script are those of its chunks,
and the check of them is perfect, unless the script closes the fence around itself and announces ranges
behind it.
-/

namespace ScriptAtlas

namespace LineRange

theorem Tile.ordered {first last : Int} {ranges : List LineRange} (tile : Tile first last ranges) :
    ranges.Pairwise fun a b => a.notAfter b = true := by
  induction ranges generalizing first with
  | nil => exact .nil
  | cons r rest ih =>
      obtain ⟨-, nonempty, after⟩ := tile
      refine List.pairwise_cons.mpr ⟨fun other later => ?_, ih after⟩
      have bounds := after.bounds.2 other later
      rw [Coverage.notAfter_iff]
      omega

end LineRange

namespace Coverage

open LineRange

theorem isPerfect_of_tile {ranges tiled : List LineRange} {total : Int} (perm : ranges.Perm tiled)
    (tile : Tile 1 total tiled) (room : total < maxInt64) : (ofRanges ranges total).isPerfect = true := by
  have sorted : (ofRanges ranges total).ranges = tiled := by
    refine List.Perm.eq_of_pairwise ?_ (ofRanges_sorted ranges total) tile.ordered
      ((ofRanges_perm ranges total).trans perm)
    intro a b _ _ before after
    rw [notAfter_iff] at before after
    rw [LineRange.mk.injEq]
    omega
  have walk : WalkFits total 0 tiled := by
    refine ⟨Int.le_refl 0, by decide, fun r member => ?_, Int.le_of_lt room⟩
    have bounds := tile.bounds.2 r member
    omega
  obtain ⟨gapless, apart, sum⟩ := gapless_of_tile walk tile
  have same : lengths ranges = lengths tiled := (perm.map _).sum_eq
  have low := tile.bounds.1
  have fits : Fits ranges total := by
    refine ⟨fun r member => walk.numbers r (perm.mem_iff.mp member), walk.total, ?_⟩
    rw [same, sum, minInt64]
    omega
  rw [isPerfect_iff fits, sorted]
  exact ⟨gapless, apart, by omega⟩

end Coverage

/-! ### The chunks of a script in its guide -/

namespace Script

theorem chunks_presentable (lines : List Text) (z : Sizing) (room : (lines.length : Int) ≤ maxInt64) :
    ∀ c ∈ (ofLines lines).chunks z, Guide.Presentable c := by
  intro c member
  have bounds := (chunks_tile (ofLines lines) z).bounds.2 ⟨c.start, c.stop⟩ (List.mem_map_of_mem member)
  rw [ofLines_size] at bounds
  dsimp only at bounds
  refine ⟨chunks_told Guide.tame_prose lines z c member, fun tag listed => ?_, ?_, ?_⟩
  · exact Guide.tag_clear ((chunks_named Guide.tag_spelled lines z c member).operations tag listed)
  · exact ⟨c.start.toNat, by omega, by omega⟩
  · exact ⟨c.stop.toNat, by omega, by omega⟩

end Script

theorem chunkContent_ranges (content : Text) (z : Sizing) (valid : z.check = .ok ())
    (room : ((Script.splitLines content).length : Int) < maxInt64) :
    (Guide.ranges (Guide.markdown (chunkContent content z) z)).Perm
      (Chunk.ranges (chunkContent content z) ++ Guide.rangesFrom true (Script.splitLines content)) := by
  have shown := Script.chunks_presentable (Script.splitLines content) z (Int.le_of_lt room)
  have perm := Guide.ranges_markdown (Sizing.strategy_of_check valid) (Script.chunks_orderly _ z) shown
  rwa [← chunkLines, chunkLines_lines _ z (Script.splitLines_clean content)] at perm

/-- The guide of a script shows the range of each chunk, and beyond that what the script's own lines show
to a reader who begins inside a fence. It shows the ranges of the chunks and no others exactly when
that is nothing, and then the check of the guide is perfect. -/
theorem guide_ranges (content : Text) (z : Sizing) (valid : z.check = .ok ())
    (room : ((Script.splitLines content).length : Int) < maxInt64) :
    (Guide.ranges (Guide.markdown (chunkContent content z) z)).Perm
        (Chunk.ranges (chunkContent content z) ++ Guide.rangesFrom true (Script.splitLines content)) ∧
      ((Guide.ranges (Guide.markdown (chunkContent content z) z)).Perm
          (Chunk.ranges (chunkContent content z)) ↔
        Guide.rangesFrom true (Script.splitLines content) = []) ∧
      (Guide.rangesFrom true (Script.splitLines content) = [] →
        (Coverage.ofRanges (Guide.ranges (Guide.markdown (chunkContent content z) z))
          (Script.splitLines content).length).isPerfect = true) := by
  have perm := chunkContent_ranges content z valid room
  refine ⟨perm, ⟨fun same => ?_, fun quiet => ?_⟩, fun quiet => ?_⟩
  · have count := (perm.symm.trans same).length_eq
    rw [List.length_append, Nat.add_eq_left] at count
    exact List.length_eq_zero_iff.mp count
  · rwa [quiet, List.append_nil] at perm
  · rw [quiet, List.append_nil] at perm
    have tile := Script.chunks_tile (Script.ofLines (Script.splitLines content)) z
    rw [Script.ofLines_size] at tile
    exact Coverage.isPerfect_of_tile perm tile room

def fencedNote : Text :=
  "/*\n```\nnote\n```\n*/\nSELECT 1"

theorem guide_ranges_note : Sizing.default.check = .ok () ∧
    ((Script.splitLines fencedNote).length : Int) < maxInt64 ∧
    (Guide.ranges (Guide.markdown (chunkContent fencedNote .default) .default)).Perm
      (Chunk.ranges (chunkContent fencedNote .default)) ∧
    (Coverage.ofRanges (Guide.ranges (Guide.markdown (chunkContent fencedNote .default) .default))
      (Script.splitLines fencedNote).length).isPerfect = true := by
  have valid : Sizing.default.check = .ok () := by decide +kernel
  have room : ((Script.splitLines fencedNote).length : Int) < maxInt64 := by decide +kernel
  have quiet : Guide.rangesFrom true (Script.splitLines fencedNote) = [] := by decide +kernel
  obtain ⟨-, same, perfect⟩ := guide_ranges fencedNote .default valid room
  exact ⟨valid, room, same.mpr quiet, perfect quiet⟩

def fencedRange : Text :=
  "/*\n```\nLines: 1-1\n```\n*/\nSELECT 1"

theorem fencedRange_shown : Sizing.default.check = .ok () ∧
    ¬ (Guide.ranges (Guide.markdown (chunkContent fencedRange .default) .default)).Perm
      (Chunk.ranges (chunkContent fencedRange .default)) := by
  have valid : Sizing.default.check = .ok () := by decide +kernel
  have perm := chunkContent_ranges fencedRange .default valid (by decide +kernel)
  refine ⟨valid, fun same => ?_⟩
  have count := (perm.symm.trans same).length_eq
  rw [List.length_append, Nat.add_eq_left] at count
  exact absurd count (by decide +kernel)

end ScriptAtlas
