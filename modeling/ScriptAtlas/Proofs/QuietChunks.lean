import Mathlib.Data.List.Chain
import ScriptAtlas.Proofs.Partition

/-!
Chunks without code. A plan folds lines without code into the block that follows them, so that every
block but the last holds code. Dividing a block can part such lines from their code again, where enough
of them stand together; no other chunk but the last is without code.
-/

namespace ScriptAtlas

theorem Tiles.mem_dropLast_iff {lo hi : Nat} {spans : List (Nat × Nat)} (tiles : Tiles lo hi spans)
    (span : Nat × Nat) : span ∈ spans.dropLast ↔ span ∈ spans ∧ span.2 < hi := by
  induction spans generalizing lo with
  | nil => simp
  | cons first rest ih =>
      obtain ⟨start, nonempty, after⟩ := tiles
      cases rest with
      | nil =>
          have stop : first.2 = hi := after
          simp only [List.dropLast_singleton, List.not_mem_nil, List.mem_singleton, false_iff]
          rintro ⟨rfl, below⟩
          omega
      | cons second others =>
          have bounds := after.mem_bounds second List.mem_cons_self
          rw [List.dropLast_cons_cons, List.mem_cons, ih after]
          constructor
          · rintro (rfl | ⟨later, below⟩)
            · exact ⟨List.mem_cons_self, by omega⟩
            · exact ⟨List.mem_cons_of_mem first later, below⟩
          · rintro ⟨member, below⟩
            exact (List.mem_cons.mp member).imp_right fun later => ⟨later, below⟩

/-! ### Blocks -/

namespace Script

theorem isQuiet_eq_false_iff (s : Script) (lo hi : Nat) :
    s.isQuiet lo hi = false ↔ ∃ k, lo ≤ k ∧ k < hi ∧ (s.line k).isCode = true := by
  rw [← Bool.not_eq_true, isQuiet_iff]
  push Not
  simp only [Bool.not_eq_false]

theorem plan_loud (s : Script) (b : Block) (member : b ∈ s.plan) (below : b.stop < s.size) :
    s.isQuiet b.start b.stop = false := by
  rcases mem_plan s b member with ⟨own, _, loud, wide⟩ | ⟨_, stop⟩
  · obtain ⟨k, low, high, code⟩ := (isQuiet_eq_false_iff s own.start own.stop).mp loud
    have start := wide.before
    rw [← wide.stop] at high
    exact (isQuiet_eq_false_iff s b.start b.stop).mpr ⟨k, by omega, high, code⟩
  · omega

end Script

/-! ### Parts -/

namespace Divider

theorem keepApart_gaps (least : Int) (last : Nat) (points : List Nat) :
    (last :: keepApart least last points).IsChain fun (a b : Nat) => least ≤ (b : Int) - a := by
  induction points generalizing last with
  | nil => exact .singleton last
  | cons p rest ih =>
      rw [keepApart]
      split
      · rename_i apart
        exact .cons_cons apart (ih p)
      · exact ih last

theorem spaced_last (d : Divider) (lo hi : Nat) (cuts : Cuts) (p : Nat)
    (last : (d.spaced lo hi cuts).getLast? = some p) : d.sizing.min ≤ (hi : Int) - p := by
  rw [spaced, List.getLast?_reverse] at last
  have kept := List.head?_dropWhile_not (fun (p : Nat) => decide ((hi : Int) - p < d.sizing.min))
    (keepApart d.sizing.min lo cuts.sorted).reverse
  rw [last] at kept
  simpa using kept

theorem spaced_gaps (d : Divider) (lo hi : Nat) (cuts : Cuts) :
    (lo :: d.spaced lo hi cuts).IsChain fun (a b : Nat) => d.sizing.min ≤ (b : Int) - a := by
  have front : d.spaced lo hi cuts <+: keepApart d.sizing.min lo cuts.sorted := by
    rw [← List.reverse_suffix, spaced, List.reverse_reverse]
    exact List.dropWhile_suffix _
  obtain ⟨dropped, same⟩ := front
  have gaps := keepApart_gaps d.sizing.min lo cuts.sorted
  rw [← same, ← List.cons_append] at gaps
  exact gaps.left_of_append

theorem partsBetween_least (least : Int) (hi last : Nat) (points : List Nat)
    (gaps : (last :: points).IsChain fun (a b : Nat) => least ≤ (b : Int) - a)
    (room : ∀ p, (last :: points).getLast? = some p → least ≤ (hi : Int) - p) :
    ∀ part ∈ partsBetween hi last points, least ≤ (part.2 : Int) - part.1 := by
  induction points generalizing last with
  | nil =>
      intro part member
      rw [partsBetween, List.mem_singleton] at member
      subst member
      exact room last rfl
  | cons p rest ih =>
      intro part member
      rw [partsBetween, List.mem_cons] at member
      rcases member with rfl | later
      · exact gaps.rel
      · exact ih p gaps.tail (by simpa using room) part later

theorem cutPoints_least (d : Divider) (lo hi : Nat) (cut : (d.cutPoints lo hi).1 ≠ []) :
    ∀ part ∈ partsBetween hi lo (d.cutPoints lo hi).1, d.sizing.min ≤ (part.2 : Int) - part.1 := by
  rw [cutPoints] at cut ⊢
  refine partsBetween_least d.sizing.min hi lo _ (spaced_gaps d lo hi (d.settledCuts lo hi)) ?_
  intro p last
  have final := List.getLast?_eq_some_getLast cut
  rw [List.getLast?_cons, final, Option.getD_some] at last
  exact spaced_last d lo hi _ p (final.trans last)

/-- A division leaves its lines whole or cuts them into parts of at least the minimum of lines. -/
theorem divide_least (d : Divider) (budget lo hi : Nat) :
    ∀ part ∈ (d.divide budget lo hi).1,
      part.span = (lo, hi) ∨ d.sizing.min ≤ (part.stop : Int) - part.start := by
  refine d.divide_induction (motive := fun lo hi part =>
    part.span = (lo, hi) ∨ d.sizing.min ≤ (part.stop : Int) - part.start) ?_ ?_ budget lo hi
  · exact fun lo hi => .inl rfl
  · rintro lo hi cut ⟨a, b⟩ isOuter part (same | least)
    · have wide := cutPoints_least d lo hi cut (a, b) isOuter
      rw [← same] at wide
      exact .inr wide
    · exact .inr least

theorem partChunks_cases (d : Divider) (part : Part) (ordinal : Int) (parts : List Block) :
    ∀ c ∈ d.partChunks part ordinal parts,
      c.part.isSome = true ∧ ∃ p ∈ parts, c.start = p.start + 1 ∧ c.stop = p.stop := by
  induction parts generalizing ordinal with
  | nil =>
      intro c member
      cases member
  | cons p rest ih =>
      intro c member
      rw [partChunks, List.mem_cons] at member
      rcases member with rfl | later
      · exact ⟨rfl, p, List.mem_cons_self, rfl, rfl⟩
      · obtain ⟨isPart, q, inRest, lines⟩ := ih (ordinal + 1) c later
        exact ⟨isPart, q, List.mem_cons_of_mem p inRest, lines⟩

theorem chunksOf_whole_or_part (d : Divider) (b : Block) (c : Chunk) (member : c ∈ d.chunksOf b) :
    c = Chunk.ofLines d.script b.start b.stop ∨
      (d.isOversized b.start b.stop = true ∧ 2 ≤ (d.parts b.start b.stop).1.length ∧
        c.part.isSome = true ∧
          ∃ p ∈ (d.parts b.start b.stop).1, c.start = p.start + 1 ∧ c.stop = p.stop) := by
  rw [chunksOf] at member
  split at member
  · exact .inl (List.mem_singleton.mp member)
  · rename_i oversized
    dsimp only at member
    split at member
    · exact .inl (List.mem_singleton.mp member)
    · rename_i several
      exact .inr ⟨by simpa using oversized, by omega, partChunks_cases d _ 1 _ c member⟩

theorem chunksOf_cases (d : Divider) (b : Block) (c : Chunk) (member : c ∈ d.chunksOf b) :
    (c.start = b.start + 1 ∧ c.stop = b.stop) ∨
      (d.isOversized b.start b.stop = true ∧ c.part.isSome = true ∧
        ∃ p ∈ (d.parts b.start b.stop).1, c.start = p.start + 1 ∧ c.stop = p.stop) := by
  rcases d.chunksOf_whole_or_part b c member with rfl | ⟨oversized, _, part⟩
  · exact .inl ⟨rfl, rfl⟩
  · exact .inr ⟨oversized, part⟩

end Divider

/-! ### Chunks -/

namespace Script

theorem read_isCode (raw : Text) (index : Int) :
    (Line.read raw index).1.isCode = (Line.classify raw 0).isCode := by
  rw [Line.classify, Line.read, Line.read]
  dsimp only
  repeat' split
  all_goals rfl

theorem readFrom_isCode (index : Nat) (lines : List Text) :
    ((readFrom index lines).map Prod.fst).map Line.isCode =
      lines.map fun raw => (Line.classify raw 0).isCode := by
  induction lines generalizing index with
  | nil => rfl
  | cons raw rest ih =>
      rw [readFrom, List.map_cons, List.map_cons, List.map_cons, ih, read_isCode]

end Script

def Chunk.HoldsCode (c : Chunk) (lines : List Text) : Prop :=
  ∃ raw ∈ c.sourceLines lines, (Line.classify raw 0).isCode = true

instance (c : Chunk) (lines : List Text) : Decidable (c.HoldsCode lines) :=
  inferInstanceAs (Decidable (∃ raw ∈ c.sourceLines lines, (Line.classify raw 0).isCode = true))

theorem Chunk.holdsCode_iff (c : Chunk) (lines : List Text) (span : Nat × Nat)
    (start : c.start = span.1 + 1) (stop : c.stop = span.2) :
    c.HoldsCode lines ↔ (Script.ofLines lines).isQuiet span.1 span.2 = false := by
  have source : c.sourceLines lines = (lines.drop span.1).take (span.2 - span.1) := by
    rw [sourceLines, start, stop]
    congr <;> omega
  have views := Script.ofLines_slice_map lines span.1 span.2 Line.isCode _ (Script.readFrom_isCode 0 lines)
  calc
    c.HoldsCode lines ↔ true ∈ (c.sourceLines lines).map fun raw => (Line.classify raw 0).isCode :=
      List.mem_map.symm
    _ ↔ true ∈ ((Script.ofLines lines).slice span.1 span.2).map Line.isCode := by rw [source, views]
    _ ↔ _ := by
      rw [List.mem_map, Script.isQuiet_eq_false_iff]
      constructor
      · rintro ⟨l, inside, code⟩
        obtain ⟨k, low, high, -, rfl⟩ := (Script.mem_slice_iff _ _ _ l).mp inside
        exact ⟨k, low, high, code⟩
      · rintro ⟨k, low, high, code⟩
        exact ⟨_, (Script.mem_slice_iff _ _ _ _).mpr
          ⟨k, low, high, Script.lt_size_of_isCode _ k code, rfl⟩, code⟩

theorem chunkLines_dropLast (lines : List Text) (z : Sizing) :
    (chunkLines lines z).dropLast.map Chunk.bare =
      ((Script.ofLines lines).spans z).dropLast.map fun span =>
        Chunk.ofLines (Script.ofLines lines) span.1 span.2 := by
  rw [List.map_dropLast, List.map_dropLast]
  exact congrArg List.dropLast (Script.chunks_bare (Script.ofLines lines) z)

theorem chunkLines_holdCode_iff (lines : List Text) (z : Sizing) :
    (∀ c ∈ (chunkLines lines z).dropLast, c.HoldsCode lines) ↔
      ∀ span ∈ (Script.ofLines lines).spans z, span.2 < (Script.ofLines lines).size →
        (Script.ofLines lines).isQuiet span.1 span.2 = false := by
  have tiles := Script.spans_tiles (Script.ofLines lines) z
  have bare := chunkLines_dropLast lines z
  have ends : ∀ (c : Chunk) (span : Nat × Nat),
      Chunk.ofLines (Script.ofLines lines) span.1 span.2 = c.bare →
        (c.HoldsCode lines ↔ (Script.ofLines lines).isQuiet span.1 span.2 = false) := by
    intro c span same
    exact c.holdsCode_iff lines span (congrArg Chunk.start same).symm (congrArg Chunk.stop same).symm
  constructor
  · intro loud span member below
    have inside := (tiles.mem_dropLast_iff span).mpr ⟨member, below⟩
    have view := List.mem_map_of_mem (f := fun span : Nat × Nat =>
      Chunk.ofLines (Script.ofLines lines) span.1 span.2) inside
    rw [← bare] at view
    obtain ⟨c, isChunk, same⟩ := List.mem_map.mp view
    exact (ends c span same.symm).mp (loud c isChunk)
  · intro loud c isChunk
    have view := List.mem_map_of_mem (f := Chunk.bare) isChunk
    rw [bare] at view
    obtain ⟨span, inside, same⟩ := List.mem_map.mp view
    obtain ⟨member, below⟩ := (tiles.mem_dropLast_iff span).mp inside
    exact (ends c span same).mpr (loud span member below)

theorem chunkLines_dropLast_stop (lines : List Text) (z : Sizing) (c : Chunk)
    (member : c ∈ (chunkLines lines z).dropLast) : c.stop < (Script.ofLines lines).size := by
  have view := List.mem_map_of_mem (f := Chunk.bare) member
  rw [chunkLines_dropLast] at view
  obtain ⟨span, inside, same⟩ := List.mem_map.mp view
  have below := (((Script.spans_tiles (Script.ofLines lines) z).mem_dropLast_iff span).mp inside).2
  have stop : (span.2 : Int) = c.stop := congrArg Chunk.stop same
  omega

/-- Within a block of the plan, only parts of a division can be without code. -/
theorem Script.spans_loud_iff (s : Script) (z : Sizing) (b : Block) (member : b ∈ s.plan) :
    (∀ span ∈ (Divider.mk z.normalized s).spans b, span.2 < s.size →
        s.isQuiet span.1 span.2 = false) ↔
      ((Divider.mk z.normalized s).isOversized b.start b.stop = true →
        ∀ part ∈ ((Divider.mk z.normalized s).parts b.start b.stop).1, part.stop < s.size →
          s.isQuiet part.start part.stop = false) := by
  have loud : ∀ span ∈ [b.span], span.2 < s.size → s.isQuiet span.1 span.2 = false := by
    intro span here below
    rw [List.mem_singleton] at here
    subst here
    exact plan_loud s b member below
  have room := ((plan_tiles s).mem_bounds b.span (List.mem_map_of_mem member)).2.1
  have tiles := Divider.parts_tiles (Divider.mk z.normalized s) b.start b.stop z.normalized_min_pos room
  rw [Divider.spans]
  split
  · rename_i small
    rw [Bool.not_eq_true'] at small
    simp only [small, Bool.false_eq_true, false_implies, iff_true]
    exact loud
  · rename_i large
    rw [Bool.not_eq_true', Bool.not_eq_false] at large
    split
    · rename_i single
      refine iff_of_true loud fun _ part inside below => ?_
      have only := tiles.eq_single room (by rwa [List.length_map])
      exact loud part.span (only ▸ List.mem_map_of_mem inside) below
    · simp only [large, true_implies, List.forall_mem_map, Block.span]

/-- All chunks but the last hold code exactly when all parts of divided blocks do, save one that ends the
script. A chunk without code before the last is such a part and has at least the minimum of lines. -/
theorem chunkLines_loud_iff (lines : List Text) (z : Sizing) :
    ((∀ c ∈ (chunkLines lines z).dropLast, c.HoldsCode lines) ↔
      ∀ b ∈ (Script.ofLines lines).plan,
        (Divider.mk z.normalized (Script.ofLines lines)).isOversized b.start b.stop = true →
          ∀ part ∈ ((Divider.mk z.normalized (Script.ofLines lines)).parts b.start b.stop).1,
            part.stop < (Script.ofLines lines).size →
              (Script.ofLines lines).isQuiet part.start part.stop = false) ∧
    ∀ c ∈ (chunkLines lines z).dropLast, ¬ c.HoldsCode lines →
      z.strategy ≠ .strictLogical ∧ c.part.isSome = true ∧ z.normalized.min ≤ c.stop - c.start + 1 := by
  constructor
  · rw [chunkLines_holdCode_iff, Script.spans]
    simp only [List.forall_mem_flatMap]
    exact forall₂_congr fun b member => Script.spans_loud_iff (Script.ofLines lines) z b member
  · intro c member quiet
    have before := chunkLines_dropLast_stop lines z c member
    obtain ⟨b, inPlan, d, inside, same⟩ :=
      Script.mem_chunks (List.dropLast_subset _ member)
    have start : d.start = c.start := show d.unlinked.start = c.unlinked.start by rw [same]
    have stop : d.stop = c.stop := show d.unlinked.stop = c.unlinked.stop by rw [same]
    have part : d.part = c.part := show d.unlinked.part = c.unlinked.part by rw [same]
    -- a chunk with all lines of its block holds the code of the block
    have notWhole : ¬ (d.start = b.start + 1 ∧ d.stop = b.stop) := by
      rintro ⟨first, last⟩
      have loud := Script.plan_loud (Script.ofLines lines) b inPlan (by omega)
      exact quiet ((c.holdsCode_iff lines b.span (start.symm.trans first) (stop.symm.trans last)).mpr loud)
    rcases Divider.chunksOf_cases _ b d inside with whole | ⟨oversized, isPart, p, isParts, first, last⟩
    · exact absurd whole notWhole
    · refine ⟨?_, by rw [← part]; exact isPart, ?_⟩
      · intro strict
        simp [Divider.isOversized, Sizing.normalized, strict] at oversized
      · rcases Divider.divide_least _ _ _ _ p isParts with whole | least
        · have ends := Prod.mk.inj whole
          exact absurd ⟨by omega, by omega⟩ notWhole
        · simp only at least
          omega

def looseComments : List Text :=
  ["-- first", "-- second", "PRINT 1"]

/-- The comments become a chunk of their own when three lines are too many. -/
theorem looseComments_quiet :
    ¬ ∀ c ∈ (chunkLines looseComments { target := 2, min := 1, max := 2 }).dropLast,
      c.HoldsCode looseComments := by
  have cut : (Script.ofLines looseComments).spans { target := 2, min := 1, max := 2 } =
        [(0, 2), (2, 3)] ∧ (Script.ofLines looseComments).isQuiet 0 2 = true := by
    decide +kernel
  have size : (Script.ofLines looseComments).size = 3 := Script.ofLines_size looseComments
  rw [chunkLines_holdCode_iff, cut.1, size]
  intro loud
  have first := loud (0, 2) List.mem_cons_self (by decide)
  rw [cut.2] at first
  cases first

end ScriptAtlas
