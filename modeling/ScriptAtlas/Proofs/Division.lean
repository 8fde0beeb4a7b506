import ScriptAtlas.Cut.Division
import ScriptAtlas.Proofs.Plan

/-!
The division of a block: every cut that a range is given is safe in that range, the cuts ascend
strictly, and so the parts tile the block at every depth of the division.
-/

namespace ScriptAtlas

namespace CutRange

theorem isSafe_bounds (r : CutRange) (p : Nat) (safe : r.isSafe p = true) : r.lo < p ∧ p < r.hi := by
  rw [isSafe] at safe
  split at safe
  · cases safe
  · rename_i inside
    simp at inside
    omega

theorem relocateFrom_isSafe (r : CutRange) (ceiling : Option Int) (count : Nat) (depth : Int)
    (q found : Nat) (moved : r.relocateFrom ceiling count depth q = some found) :
    r.isSafe found = true := by
  induction count generalizing depth q with
  | zero => simp [relocateFrom] at moved
  | succ count ih =>
      rw [relocateFrom] at moved
      split at moved
      · rename_i natural
        cases moved
        simp only [Bool.and_eq_true] at natural
        exact natural.2
      · exact ih _ (q + 1) moved

theorem settle_isSafe (r : CutRange) (p q : Nat) (settled : r.settle p = some q) :
    r.isSafe q = true := by
  rw [settle] at settled
  split at settled
  · rename_i safe
    cases settled
    exact safe
  · split at settled
    · rename_i moved
      cases settled
      exact relocateFrom_isSafe r _ _ _ _ q moved
    · exact relocateFrom_isSafe r _ _ _ _ q settled

end CutRange

namespace Cuts

theorem mem_add (cuts : Cuts) (p : Nat) (source : CutSource) :
    ∀ cut ∈ cuts.add p source, cut ∈ cuts ∨ cut = (p, source) := by
  intro cut member
  rw [add] at member
  split at member
  · exact .inl member
  · simpa using member

theorem mem_sorted (cuts : Cuts) (p : Nat) : p ∈ cuts.sorted ↔ ∃ source, (p, source) ∈ cuts := by
  simp [sorted, List.mem_mergeSort]

end Cuts

namespace Divider

/-! ### Every cut is safe in its range -/

def SafeCuts (d : Divider) (lo hi : Nat) (cuts : Cuts) : Prop :=
  ∀ cut ∈ cuts, (CutRange.mk d.script lo hi).isSafe cut.1 = true

theorem consult_safe (d : Divider) (lo hi : Nat) (cuts : Cuts) (source : CutSource)
    (safe : d.SafeCuts lo hi cuts) : d.SafeCuts lo hi (d.consult lo hi cuts source) := by
  rw [consult]
  generalize d.script.proposed d.sizing source lo hi = points
  induction points generalizing cuts with
  | nil => exact safe
  | cons p rest ih =>
      rw [List.foldl_cons]
      apply ih
      split
      · rename_i q settled
        intro cut member
        rcases Cuts.mem_add cuts q source cut member with old | rfl
        · exact safe cut old
        · exact CutRange.settle_isSafe _ p q settled
      · exact safe

theorem consultWhileOversized_safe (d : Divider) (lo hi : Nat) (sources : List CutSource)
    (cuts : Cuts) (safe : d.SafeCuts lo hi cuts) :
    d.SafeCuts lo hi (d.consultWhileOversized lo hi sources cuts) := by
  induction sources generalizing cuts with
  | nil => exact safe
  | cons source rest ih =>
      rw [consultWhileOversized]
      split
      · exact ih _ (consult_safe d lo hi cuts source safe)
      · exact safe

theorem settledCuts_safe (d : Divider) (lo hi : Nat) : d.SafeCuts lo hi (d.settledCuts lo hi) := by
  have none : d.SafeCuts lo hi [] := fun cut member => by cases member
  have first : d.SafeCuts lo hi ([CutSource.sections, .business, .nesting].foldl (d.consult lo hi) []) :=
    consult_safe d lo hi _ _ (consult_safe d lo hi _ _ (consult_safe d lo hi _ _ none))
  have second := consultWhileOversized_safe d lo hi [.groups, .branches, .statements] _ first
  rw [settledCuts]
  split
  · exact consult_safe d lo hi _ _ second
  · exact second

/-! ### Cuts ascend -/

theorem keepApart_sublist (least : Int) (last : Nat) (points : List Nat) :
    (keepApart least last points).Sublist points := by
  induction points generalizing last with
  | nil => exact List.Sublist.slnil
  | cons p rest ih =>
      rw [keepApart]
      split
      · exact (ih p).cons_cons p
      · exact (ih last).cons p

theorem keepApart_ascends (least : Int) (positive : 0 < least) (last : Nat) (points : List Nat) :
    (last :: keepApart least last points).Pairwise (· < ·) := by
  induction points generalizing last with
  | nil => simp [keepApart]
  | cons p rest ih =>
      rw [keepApart]
      split
      · rename_i apart
        have tail := ih p
        refine List.pairwise_cons.mpr ⟨?_, tail⟩
        intro q member
        rcases List.mem_cons.mp member with rfl | later
        · omega
        · have beyond := (List.pairwise_cons.mp tail).1 q later
          omega
      · exact ih last

theorem spaced_sublist (d : Divider) (lo hi : Nat) (cuts : Cuts) :
    (d.spaced lo hi cuts).Sublist (keepApart d.sizing.min lo cuts.sorted) := by
  rw [spaced]
  have kept : (((keepApart d.sizing.min lo cuts.sorted).reverse.dropWhile fun (p : Nat) =>
      decide ((hi : Int) - p < d.sizing.min)).reverse).Sublist
        (keepApart d.sizing.min lo cuts.sorted).reverse.reverse :=
    (List.dropWhile_sublist _).reverse
  rwa [List.reverse_reverse] at kept

theorem spaced_ascends (d : Divider) (lo hi : Nat) (cuts : Cuts) (positive : 0 < d.sizing.min) :
    (d.spaced lo hi cuts).Pairwise (· < ·) :=
  ((List.pairwise_cons.mp (keepApart_ascends d.sizing.min positive lo cuts.sorted)).2).sublist
    (spaced_sublist d lo hi cuts)

theorem mem_cutPoints_isSafe (d : Divider) (lo hi p : Nat) (member : p ∈ (d.cutPoints lo hi).1) :
    (CutRange.mk d.script lo hi).isSafe p = true := by
  have sorted := ((spaced_sublist d lo hi _).trans (keepApart_sublist _ lo _)).subset member
  obtain ⟨source, cut⟩ := (Cuts.mem_sorted _ p).mp sorted
  exact settledCuts_safe d lo hi (p, source) cut

/-! ### Parts -/

theorem partsBetween_tiles (hi last : Nat) (points : List Nat)
    (ascends : (last :: points).Pairwise (· < ·)) (inside : ∀ p ∈ points, p < hi)
    (room : last < hi) : Tiles last hi (partsBetween hi last points) := by
  induction points generalizing last with
  | nil => exact Tiles.single room
  | cons p rest ih =>
      have below := (List.pairwise_cons.mp ascends).1 p List.mem_cons_self
      refine ⟨rfl, below, ih p (List.pairwise_cons.mp ascends).2 ?_ (inside p List.mem_cons_self)⟩
      exact fun q member => inside q (List.mem_cons_of_mem p member)

/-- The parts that lines `[a, b)` of a division come to: those of a further division that has more than
one, or the lines as they are. -/
def pieces (d : Divider) (budget : Nat) (part : Nat × Nat) : List Block :=
  if d.isOversized part.1 part.2 && 1 < (d.divide budget part.1 part.2).1.length then
    (d.divide budget part.1 part.2).1
  else [d.script.block part.1 part.2 .sequence]

theorem divide_zero_parts (d : Divider) (lo hi : Nat) :
    (d.divide 0 lo hi).1 = [d.script.block lo hi .sequence] :=
  rfl

theorem foldl_parts (step : List Block × List CutSource → Nat × Nat → List Block × List CutSource)
    (inner : Nat × Nat → List Block) (each : ∀ done part, (step done part).1 = done.1 ++ inner part)
    (parts : List (Nat × Nat)) (done : List Block × List CutSource) :
    (parts.foldl step done).1 = done.1 ++ parts.flatMap inner := by
  induction parts generalizing done with
  | nil => simp
  | cons part rest ih => rw [List.foldl_cons, ih, each, List.flatMap_cons, List.append_assoc]

theorem divide_succ_parts (d : Divider) (budget lo hi : Nat) :
    (d.divide (budget + 1) lo hi).1 =
      if d.isOversized lo hi = false ∨ (d.cutPoints lo hi).1 = [] then
        [d.script.block lo hi .sequence]
      else (partsBetween hi lo (d.cutPoints lo hi).1).flatMap (d.pieces budget) := by
  rw [divide]
  cases oversized : d.isOversized lo hi with
  | false => simp
  | true =>
      cases points : (d.cutPoints lo hi).1 with
      | nil => simp [points]
      | cons p rest =>
          simp only [Bool.not_true, Bool.false_eq_true, if_false, List.isEmpty_cons, reduceCtorEq,
            or_self, points]
          rw [foldl_parts _ (d.pieces budget), List.nil_append]
          intro done part
          rw [pieces]
          split <;> rfl

/-- What holds of lines that stay whole, and of a part of the divided lines when it holds of this part among
the lines between two cuts, holds of every part of a division. -/
theorem divide_induction (d : Divider) {motive : Nat → Nat → Block → Prop}
    (whole : ∀ lo hi, motive lo hi (d.script.block lo hi .sequence))
    (between : ∀ lo hi, (d.cutPoints lo hi).1 ≠ [] →
      ∀ outer ∈ partsBetween hi lo (d.cutPoints lo hi).1,
        ∀ part, motive outer.1 outer.2 part → motive lo hi part)
    (budget lo hi : Nat) : ∀ part ∈ (d.divide budget lo hi).1, motive lo hi part := by
  induction budget generalizing lo hi with
  | zero =>
      intro part member
      rw [divide_zero_parts, List.mem_singleton] at member
      exact member ▸ whole lo hi
  | succ budget ih =>
      intro part member
      rw [divide_succ_parts] at member
      split at member
      · rw [List.mem_singleton] at member
        exact member ▸ whole lo hi
      · rename_i cut
        obtain ⟨outer, isOuter, inside⟩ := List.mem_flatMap.mp member
        refine between lo hi (fun none => cut (.inr none)) outer isOuter part ?_
        rw [pieces] at inside
        split at inside
        · exact ih outer.1 outer.2 part inside
        · rw [List.mem_singleton] at inside
          exact inside ▸ whole outer.1 outer.2

theorem cutPoints_tiles (d : Divider) (lo hi : Nat) (positive : 0 < d.sizing.min) (room : lo < hi) :
    Tiles lo hi (partsBetween hi lo (d.cutPoints lo hi).1) := by
  have safe : ∀ p ∈ (d.cutPoints lo hi).1, lo < p ∧ p < hi := fun p member =>
    CutRange.isSafe_bounds _ p (mem_cutPoints_isSafe d lo hi p member)
  have ascends : (lo :: (d.cutPoints lo hi).1).Pairwise (· < ·) :=
    List.pairwise_cons.mpr ⟨fun p member => (safe p member).1, spaced_ascends d lo hi _ positive⟩
  exact partsBetween_tiles hi lo _ ascends (fun p member => (safe p member).2) room

theorem divide_tiles (d : Divider) (budget lo hi : Nat) (positive : 0 < d.sizing.min)
    (room : lo < hi) : Tiles lo hi ((d.divide budget lo hi).1.map Block.span) := by
  induction budget generalizing lo hi with
  | zero => exact Tiles.single room
  | succ budget ih =>
      rw [divide_succ_parts]
      split
      · exact Tiles.single room
      · have outer := d.cutPoints_tiles lo hi positive room
        rw [List.map_flatMap]
        refine Tiles.flatMap _ id _ (by simpa using outer) ?_
        intro part _ nonempty
        rw [pieces]
        split
        · exact ih part.1 part.2 nonempty
        · exact Tiles.single nonempty

theorem parts_tiles (d : Divider) (lo hi : Nat) (positive : 0 < d.sizing.min) (room : lo < hi) :
    Tiles lo hi ((d.parts lo hi).1.map Block.span) :=
  divide_tiles d _ lo hi positive room

end Divider

end ScriptAtlas
