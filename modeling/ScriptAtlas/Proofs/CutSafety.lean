import ScriptAtlas.Proofs.Partition

/-!
Cuts of a divided block are safe for the whole block. A cut is judged within the part that it divides,
and the ends of this part are safe cuts themselves, so nothing that crosses the new cut can reach in
from outside the part.
-/

namespace ScriptAtlas

open Word

/-- A boundary before line `p` of lines `[lo, hi)` inside no parentheses that were opened since `lo`,
and, with code on both sides, between no header and its body and inside no statement. -/
structure Script.SafeWithin (s : Script) (lo hi p : Nat) : Prop where
  closed : s.total Line.parens (p - lo) lo ≤ 0
  leads : ∀ next prev, s.nextCode p hi = some next → s.prevCode lo p = some prev →
    leadsWith (s.line next).code ["ELSE", "WHEN", "THEN", "CATCH", "AND", "OR", "NOT"] = false ∧
      beginsCatch (s.line next).code = false ∧ beginsBlock (s.line next).code = false
  reached : ∀ next prev, s.nextCode p hi = some next → s.prevCode lo p = some prev →
    isPendingHeader (s.line prev).code = false
  whole : ∀ next prev, s.nextCode p hi = some next → s.prevCode lo p = some prev →
    ∀ i text, lo ≤ i → i < p → (s.line i).statementText = some text →
      (s.statementExtent i text hi).last < p

namespace Line

theorem isCode_of_statementText (l : Line) (text : Text) (starts : l.statementText = some text) :
    l.isCode = true := by
  rw [statementText] at starts
  split at starts
  · cases starts
  · rename_i loud
    simpa [isCode] using loud

end Line

namespace CutRange

/-! ### What a safe cut rules out in its own range -/

theorem statementReaches_false (r : CutRange) (p count stop : Nat)
    (clear : r.statementReaches p count stop = false) (i : Nat) (text : Text) (low : r.lo ≤ i)
    (high : i < stop) (near : stop ≤ i + count)
    (starts : (r.script.line i).statementText = some text) :
    (r.script.statementExtent i text r.hi).last < p := by
  induction count generalizing stop with
  | zero => omega
  | succ count ih =>
      cases stop with
      | zero => omega
      | succ j =>
          rw [statementReaches] at clear
          split at clear
          · omega
          · simp only [Bool.or_eq_false_iff] at clear
            by_cases here : i = j
            · subst here
              simpa [starts] using clear.1
            · exact ih j clear.2 (by omega) (by omega)

/-- No statement of the range reaches the cut: those further back than the search goes end before it by
the window of a statement. -/
theorem insideStatement_false (r : CutRange) (p prev : Nat) (before : prev < p)
    (clear : r.insideStatement p prev = false) (i : Nat) (text : Text) (low : r.lo ≤ i)
    (high : i ≤ prev) (starts : (r.script.line i).statementText = some text) :
    (r.script.statementExtent i text r.hi).last < p := by
  by_cases near : prev + 1 ≤ i + (backwardWindow + 1)
  · exact statementReaches_false r p _ _ clear i text low (by omega) near starts
  · have window : StatementScan.window ≤ backwardWindow := by decide
    rcases Script.statementExtent_last r.script i text r.hi with same | ⟨_, _, short, _⟩ <;> omega

theorem isSafe_parts (r : CutRange) (p next prev : Nat) (safe : r.isSafe p = true)
    (after : r.script.nextCode p r.hi = some next) (before : r.script.prevCode r.lo p = some prev) :
    canLead (r.script.line next).code = true ∧ isPendingHeader (r.script.line prev).code = false ∧
      r.insideStatement p prev = false := by
  rw [isSafe, after, before] at safe
  split at safe
  · cases safe
  · split at safe
    · cases safe
    · simp only [Bool.and_eq_true, Bool.not_eq_true'] at safe
      exact ⟨safe.1.1.1, safe.1.1.2, safe.2⟩

theorem isSafe_parens (r : CutRange) (p : Nat) (safe : r.isSafe p = true) : r.parens p ≤ 0 := by
  rw [isSafe] at safe
  split at safe
  · cases safe
  · split at safe
    · cases safe
    · omega

end CutRange

namespace Script

theorem nextCode_le_statementExtent (s : Script) (i p limit next : Nat) (text : Text) (before : i < p)
    (after : s.nextCode p limit = some next)
    (crosses : p ≤ (s.statementExtent i text limit).last) :
    next ≤ (s.statementExtent i text limit).last := by
  obtain ⟨_, _, _, quiet⟩ := nextCode_eq_some s p limit next after
  rcases statementExtent_last s i text limit with same | ⟨_, _, _, code⟩
  · omega
  · apply Nat.le_of_not_lt
    intro earlier
    simp [quiet _ crosses earlier] at code

theorem SafeWithin.shift {s : Script} {lo hi q : Nat} (edge : s.SafeWithin lo hi q) (p : Nat)
    (quiet : ∀ k, p ≤ k ∧ k < q ∨ q ≤ k ∧ k < p → (s.line k).isCode = false)
    (closed : s.total Line.parens (p - lo) lo ≤ 0) : s.SafeWithin lo hi p := by
  have sameCode : s.nextCode p hi = s.nextCode q hi ∧ s.prevCode lo p = s.prevCode lo q := by
    rcases Nat.le_total p q with ordered | ordered
    · have silent := fun k low high => quiet k (.inl ⟨low, high⟩)
      exact ⟨nextCode_skip s p q hi ordered silent, (prevCode_skip s lo p q ordered silent).symm⟩
    · have silent := fun k low high => quiet k (.inr ⟨low, high⟩)
      exact ⟨(nextCode_skip s q p hi ordered silent).symm, prevCode_skip s lo q p ordered silent⟩
  refine ⟨closed, ?_, ?_, ?_⟩
  · rw [sameCode.1, sameCode.2]
    exact edge.leads
  · rw [sameCode.1, sameCode.2]
    exact edge.reached
  · rw [sameCode.1, sameCode.2]
    intro next prev after before i text from_lo before_p starts
    have code := Line.isCode_of_statementText _ text starts
    have before_q : i < q := by
      apply Nat.lt_of_not_le
      intro later
      simp [quiet i (.inr ⟨later, before_p⟩)] at code
    have ends := edge.whole next prev after before i text from_lo before_q starts
    apply Nat.lt_of_not_le
    intro crosses
    rcases statementExtent_last s i text hi with same | ⟨_, _, _, lastCode⟩
    · omega
    · simp [quiet _ (.inl ⟨crosses, ends⟩)] at lastCode

theorem SafeWithin.statement_lt {s : Script} {lo hi q : Nat} (edge : s.SafeWithin lo hi q) (i k : Nat)
    (text : Text) (from_lo : lo ≤ i) (before_q : i < q) (starts : (s.line i).statementText = some text)
    (from_q : q ≤ k) (before_hi : k < hi) (code : (s.line k).isCode = true) :
    (s.statementExtent i text hi).last < q := by
  have first := Line.isCode_of_statementText _ text starts
  cases after : s.nextCode q hi with
  | none => simp [nextCode_eq_none s q hi after k from_q before_hi] at code
  | some next =>
      cases before : s.prevCode lo q with
      | none => simp [prevCode_eq_none s lo q before i from_lo before_q] at first
      | some prev => exact edge.whole next prev after before i text from_lo before_q starts

/-! ### A safe cut of a part, seen from the lines around the part -/

/-- Lines `[a, b)` of `[lo, hi)` whose ends are safe there, or are the ends of all lines. -/
structure SafeEnds (s : Script) (lo hi a b : Nat) : Prop where
  low : lo ≤ a
  high : b ≤ hi
  left : a = lo ∨ s.SafeWithin lo hi a
  right : b = hi ∨ s.SafeWithin lo hi b

theorem SafeEnds.all (s : Script) (lo hi : Nat) : s.SafeEnds lo hi lo hi :=
  ⟨Nat.le_refl lo, Nat.le_refl hi, .inl rfl, .inl rfl⟩

theorem SafeEnds.closed {s : Script} {lo hi a b : Nat} (ends : s.SafeEnds lo hi a b) (p : Nat)
    (safe : (CutRange.mk s a b).isSafe p = true) : s.total Line.parens (p - lo) lo ≤ 0 := by
  have low := ends.low
  have inPart := CutRange.isSafe_parens _ p safe
  obtain ⟨above, _⟩ := CutRange.isSafe_bounds _ p safe
  simp only [CutRange.parens] at above inPart
  have front : s.total Line.parens (a - lo) lo ≤ 0 := by
    rcases ends.left with rfl | edge
    · simp [total]
    · exact edge.closed
  rw [show p - lo = (a - lo) + (p - a) by omega, total_add, show lo + (a - lo) = a by omega]
  omega

/-- A statement that begins before a safe cut of a part ends before the cut, although it is followed
here to the end of the lines around the part. -/
theorem SafeEnds.statement_lt {s : Script} {lo hi a b : Nat} (ends : s.SafeEnds lo hi a b)
    (p next prev i : Nat) (text : Text) (safe : (CutRange.mk s a b).isSafe p = true)
    (after : s.nextCode p b = some next) (before : s.prevCode a p = some prev) (from_lo : lo ≤ i)
    (before_p : i < p) (starts : (s.line i).statementText = some text) :
    (s.statementExtent i text hi).last < p := by
  have high := ends.high
  obtain ⟨from_p, next_lt, nextIsCode, quietAfter⟩ := nextCode_eq_some s p b next after
  obtain ⟨from_a, prev_lt, prevIsCode, quietBefore⟩ := prevCode_eq_some s a p prev before
  by_cases inPart : a ≤ i
  · -- Followed to the end of the part, the statement stops short of the cut. If it reached beyond it
    -- when followed further, it would take in the first code line after the cut, in the part already.
    obtain ⟨_, _, clear⟩ := CutRange.isSafe_parts _ p next prev safe after before
    have i_le : i ≤ prev := by
      apply Nat.le_of_not_lt
      intro later
      have code := Line.isCode_of_statementText _ text starts
      simp [quietBefore i later before_p] at code
    have short := CutRange.insideStatement_false ⟨s, a, b⟩ p prev prev_lt clear i text inPart i_le starts
    simp only at short
    apply Nat.lt_of_not_le
    intro crosses
    have afterWide := nextCode_eq_of_first s p hi next from_p (by omega) nextIsCode quietAfter
    have taken := nextCode_le_statementExtent s i p hi next text before_p afterWide crosses
    have still := statementExtent_reaches s i text hi b next (by omega) next_lt nextIsCode taken
    omega
  · -- From before the part, it does not even reach beyond where the part begins.
    have edge : s.SafeWithin lo hi a := ends.left.resolve_left (by omega)
    have short := edge.statement_lt i prev text from_lo (by omega) starts from_a (by omega) prevIsCode
    omega

theorem SafeEnds.safeWithin {s : Script} {lo hi a b : Nat} (ends : s.SafeEnds lo hi a b) (p : Nat)
    (safe : (CutRange.mk s a b).isSafe p = true) : s.SafeWithin lo hi p := by
  have closed := ends.closed p safe
  have low := ends.low
  have high := ends.high
  obtain ⟨above, below⟩ := CutRange.isSafe_bounds _ p safe
  simp only at above below
  -- Without code between the cut and an end of the part, the cut stands in the place of this end.
  cases after : s.nextCode p b with
  | none =>
      have quiet := nextCode_eq_none s p b after
      rcases ends.right with rfl | edge
      · refine ⟨closed, ?_, ?_, ?_⟩ <;> simp [after]
      · refine edge.shift p ?_ closed
        rintro k (⟨from_p, before_b⟩ | ⟨from_b, before_p⟩)
        · exact quiet k from_p before_b
        · omega
  | some next =>
      cases before : s.prevCode a p with
      | none =>
          have quiet := prevCode_eq_none s a p before
          rcases ends.left with rfl | edge
          · refine ⟨closed, ?_, ?_, ?_⟩ <;> simp [before]
          · refine edge.shift p ?_ closed
            rintro k (⟨from_p, before_a⟩ | ⟨from_a, before_p⟩)
            · omega
            · exact quiet k from_a before_p
      | some prev =>
          obtain ⟨canLead, notPending, _⟩ := CutRange.isSafe_parts _ p next prev safe after before
          obtain ⟨from_p, next_lt, nextIsCode, quietAfter⟩ := nextCode_eq_some s p b next after
          obtain ⟨from_a, prev_lt, prevIsCode, quietBefore⟩ := prevCode_eq_some s a p prev before
          have afterWide : s.nextCode p hi = some next :=
            nextCode_eq_of_first s p hi next from_p (by omega) nextIsCode quietAfter
          have beforeWide : s.prevCode lo p = some prev :=
            prevCode_eq_of_last s lo p prev (by omega) prev_lt prevIsCode quietBefore
          refine ⟨closed, ?_, ?_, ?_⟩ <;> rw [afterWide, beforeWide] <;> rintro _ _ ⟨⟩ ⟨⟩
          · simp only [CutRange.canLead, Bool.and_eq_true, Bool.not_eq_true'] at canLead
            exact ⟨canLead.1.1, canLead.1.2, canLead.2⟩
          · exact notPending
          · intro i text from_lo before_p starts
            exact ends.statement_lt p next prev i text safe after before from_lo before_p starts

end Script

namespace Divider

/-! ### Every depth of a division -/

theorem mem_partsBetween (hi last : Nat) (points : List Nat) :
    ∀ part ∈ partsBetween hi last points,
      (part.1 = last ∨ part.1 ∈ points) ∧ (part.2 = hi ∨ part.2 ∈ points) := by
  induction points generalizing last with
  | nil =>
      intro part member
      rw [partsBetween, List.mem_singleton] at member
      subst member
      exact ⟨.inl rfl, .inl rfl⟩
  | cons p rest ih =>
      intro part member
      rw [partsBetween, List.mem_cons] at member
      rcases member with rfl | later
      · exact ⟨.inl rfl, .inr List.mem_cons_self⟩
      · obtain ⟨start, stop⟩ := ih p part later
        refine ⟨.inr ?_, stop.imp_right (List.mem_cons_of_mem p)⟩
        rcases start with rfl | inRest
        · exact List.mem_cons_self
        · exact List.mem_cons_of_mem p inRest

theorem partsBetween_safeEnds (d : Divider) (lo hi a b : Nat) (ends : d.script.SafeEnds lo hi a b)
    (part : Nat × Nat) (member : part ∈ partsBetween b a (d.cutPoints a b).1) :
    d.script.SafeEnds lo hi part.1 part.2 ∧ (part.1 = a ∨ d.script.SafeWithin lo hi part.1) := by
  have cut (p : Nat) (inCuts : p ∈ (d.cutPoints a b).1) :
      lo ≤ p ∧ p ≤ hi ∧ d.script.SafeWithin lo hi p := by
    have safe := mem_cutPoints_isSafe d a b p inCuts
    have bounds := CutRange.isSafe_bounds _ p safe
    exact ⟨Nat.le_trans ends.low (Nat.le_of_lt bounds.1), Nat.le_trans (Nat.le_of_lt bounds.2) ends.high,
      ends.safeWithin p safe⟩
  obtain ⟨start, stop⟩ := mem_partsBetween b a _ part member
  refine ⟨⟨?_, ?_, ?_, ?_⟩, start.imp_right fun inCuts => (cut _ inCuts).2.2⟩
  · rcases start with same | inCuts
    · exact same ▸ ends.low
    · exact (cut _ inCuts).1
  · rcases stop with same | inCuts
    · exact same ▸ ends.high
    · exact (cut _ inCuts).2.1
  · rcases start with same | inCuts
    · exact same ▸ ends.left
    · exact .inr (cut _ inCuts).2.2
  · rcases stop with same | inCuts
    · exact same ▸ ends.right
    · exact .inr (cut _ inCuts).2.2

theorem divide_starts (d : Divider) (lo hi budget a b : Nat) (ends : d.script.SafeEnds lo hi a b)
    (part : Block) (member : part ∈ (d.divide budget a b).1) :
    part.start = a ∨ d.script.SafeWithin lo hi part.start := by
  refine d.divide_induction (motive := fun a b part => d.script.SafeEnds lo hi a b →
    part.start = a ∨ d.script.SafeWithin lo hi part.start) ?_ ?_ budget a b part member ends
  · exact fun a b _ => .inl rfl
  · intro a b _ outer isOuter part begins ends
    obtain ⟨inner, start⟩ := partsBetween_safeEnds d lo hi a b ends outer isOuter
    rcases begins inner with same | edge
    · exact same ▸ start
    · exact .inr edge

theorem spans_starts (d : Divider) (b : Block) :
    ∀ span ∈ d.spans b, span.1 = b.start ∨ d.script.SafeWithin b.start b.stop span.1 := by
  intro span member
  rw [spans] at member
  split at member
  · rw [List.mem_singleton] at member
    exact .inl (by rw [member]; rfl)
  · split at member
    · rw [List.mem_singleton] at member
      exact .inl (by rw [member]; rfl)
    · obtain ⟨part, inParts, rfl⟩ := List.mem_map.mp member
      exact divide_starts d b.start b.stop _ b.start b.stop (.all _ _ _) part inParts

end Divider

namespace Chunk

/-- The lines, counted from zero, before which one chunk ends and the next begins. -/
def boundaries (chunks : List Chunk) : List Nat :=
  chunks.tail.map fun c => (c.start - 1).toNat

theorem boundaries_eq (s : Script) (chunks : List Chunk) (spans : List (Nat × Nat))
    (lines : chunks.map (fun c => { c.unlinked with part := none }) =
      spans.map fun span => ofLines s span.1 span.2) :
    boundaries chunks = spans.tail.map Prod.fst := by
  have starts := congrArg (fun chunks => chunks.tail.map fun c => (c.start - 1).toNat) lines
  simp only [← List.map_tail, List.map_map] at starts
  refine Eq.trans starts (List.map_congr_left fun span _ => ?_)
  simp [ofLines]

end Chunk

namespace Divider

theorem isOversized_empty (s : Script) (z : Sizing) (lo hi : Nat) (empty : hi ≤ lo) :
    (Divider.mk z.normalized s).isOversized lo hi = false := by
  have lines : hi - lo = 0 := by omega
  obtain ⟨max, force, complexity⟩ :
      0 < z.normalized.max ∧ 0 < z.normalized.force ∧ 0 < z.normalized.complexity := by
    simp only [Sizing.normalized, Sizing.default]
    refine ⟨?_, ?_, ?_⟩ <;> split <;> omega
  have weight : s.weight lo hi = 0 := by rw [Script.weight, lines, Script.weightFrom]
  rw [isOversized]
  split
  · rfl
  · simp only [lines, weight, Bool.or_eq_false_iff, Bool.and_eq_false_iff, decide_eq_false_iff_not]
    omega

theorem spans_tail_safe (s : Script) (z : Sizing) (b : Block) :
    ∀ span ∈ ((Divider.mk z.normalized s).spans b).tail,
      b.start < span.1 ∧ span.1 < b.stop ∧ s.SafeWithin b.start b.stop span.1 := by
  intro span inTail
  by_cases room : b.start < b.stop
  · have tiles := spans_tiles (Divider.mk z.normalized s) b z.normalized_min_pos room
    have bounds := tiles.mem_bounds span (List.mem_of_mem_tail inTail)
    have after := tiles.tail_after span inTail
    refine ⟨after, by omega, ?_⟩
    have starts := spans_starts (Divider.mk z.normalized s) b span (List.mem_of_mem_tail inTail)
    exact starts.resolve_left (by omega)
  · have whole : (Divider.mk z.normalized s).spans b = [b.span] := by
      simp [spans, isOversized_empty s z b.start b.stop (by omega)]
    rw [whole] at inTail
    cases inTail

end Divider

/-- Where a block is divided, at whatever depth, the cut is safe within the whole block. -/
theorem divided_block_safe (s : Script) (z : Sizing) (b : Block) (p : Nat)
    (cut : p ∈ Chunk.boundaries ((Divider.mk z.normalized s).chunksOf b)) :
    b.start < p ∧ p < b.stop ∧ s.SafeWithin b.start b.stop p := by
  rw [Chunk.boundaries_eq s _ _ (Divider.chunksOf_lines _ b)] at cut
  obtain ⟨span, inTail, rfl⟩ := List.mem_map.mp cut
  exact Divider.spans_tail_safe s z b span inTail

/-- The body of a branch is cut after the line that begins it. -/
theorem divided_block_safe_branch :
    let s := Script.ofLines ["IF @a = 1", "BEGIN", "SELECT 1", "END"]
    let z : Sizing := { target := 1, min := 1, max := 2 }
    2 ∈ Chunk.boundaries ((Divider.mk z.normalized s).chunksOf ⟨0, 4, .branch, 0⟩) ∧
      s.SafeWithin 0 4 2 := by
  intro s z
  have cut : 2 ∈ Chunk.boundaries ((Divider.mk z.normalized s).chunksOf ⟨0, 4, .branch, 0⟩) := by
    decide +kernel
  exact ⟨cut, (divided_block_safe s z ⟨0, 4, .branch, 0⟩ 2 cut).2.2⟩

end ScriptAtlas
