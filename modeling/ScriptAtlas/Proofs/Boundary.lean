import ScriptAtlas.Proofs.CutSafety
import ScriptAtlas.Proofs.Front

/-!
Boundaries between the chunks of a whole script. Cuts inside a block are checked before they are made,
and a block that a construct opens begins with its first word. What is left to chance are the ends that
are found for constructs: the lines after such an end make a block of their own whatever they begin
with.
-/

namespace ScriptAtlas

open Word

namespace Script

/-- Whether no construct goes on behind a boundary before line `p`: the first code line after it begins
with no word that continues a construct, and with no body of the header right before it. -/
def isDetached (s : Script) (p : Nat) : Bool :=
  match s.nextCode p s.size with
  | none => true
  | some next =>
    let code := (s.line next).code
    !leadsWith code ["ELSE", "WHEN", "THEN", "CATCH"] && !beginsCatch code &&
      match s.prevCode 0 p with
      | none => true
      | some prev => !(beginsBlock code && leadsWith (s.line prev).code ["IF", "WHILE", "ELSE"])

/-- A boundary before line `p` inside no parentheses and no construct. -/
structure SafeBoundary (s : Script) (p : Nat) : Prop where
  closed : s.total Line.parens p 0 = 0
  detached : s.isDetached p = true

/-! ### Lines without code -/

theorem isDetached_skip (s : Script) (lo hi : Nat) (ordered : lo ≤ hi)
    (quiet : ∀ k, lo ≤ k → k < hi → (s.line k).isCode = false) :
    s.isDetached lo = s.isDetached hi := by
  rw [isDetached, isDetached, nextCode_skip s lo hi s.size ordered quiet,
    prevCode_skip s 0 lo hi ordered quiet]

/-! ### Blocks of the plan -/

theorem isDetached_of_opened (s : Script) (steps : Nat) (b : Block) (opened : s.Opened steps b) :
    s.isDetached b.start = true := by
  obtain ⟨i, low, _, quiet, opener, _⟩ := opened
  obtain ⟨keyword, noCatch, noBlock⟩ := Line.opener_leads (s.line i) b.kind opener
  have code : (s.line i).isCode = true := by
    rw [Line.opener] at opener
    split at opener
    · cases opener
    · rename_i loud
      simpa [Line.isCode] using loud
  have next : s.nextCode b.start s.size = some i :=
    nextCode_eq_of_first s b.start s.size i low (lt_size_of_isCode s i code) code quiet
  rw [isDetached, next]
  simp only [keyword, noCatch, noBlock]
  split <;> rfl

theorem isDetached_of_safeWithin (s : Script) (lo hi p next prev : Nat) (safe : s.SafeWithin lo hi p)
    (below : hi ≤ s.size) (after : s.nextCode p hi = some next) (before : s.prevCode lo p = some prev) :
    s.isDetached p = true := by
  obtain ⟨keyword, noCatch, noBlock⟩ := safe.leads next prev after before
  obtain ⟨low, high, code, quiet⟩ := nextCode_eq_some s p hi next after
  have shorter : leadsWith (s.line next).code ["ELSE", "WHEN", "THEN", "CATCH"] = false := by
    simp only [leadsWith, List.elem_eq_mem, decide_eq_false_iff_not, List.mem_cons, List.not_mem_nil,
      or_false, not_or] at keyword ⊢
    exact ⟨keyword.1, keyword.2.1, keyword.2.2.1, keyword.2.2.2.1⟩
  rw [isDetached, nextCode_eq_of_first s p s.size next low (by omega) code quiet]
  simp only [shorter, noCatch, noBlock]
  split <;> rfl

/-- An `ELSE` chain ends before a line that does not begin with `ELSE`, unless it ends on a line with an
`ELSE` of its own. -/
theorem chain_found (s : Script) (limit steps i last : Nat)
    (found : s.elseEnd limit steps i = .found last) (own : afterEndElse (s.line last).code = none)
    (next : Nat) (after : s.nextCode (last + 1) limit = some next) :
    leadsWith (s.line next).code ["ELSE"] = false := by
  induction steps generalizing i with
  | zero => simp [elseEnd] at found
  | succ steps ih =>
      have onward : ∀ first : Extent,
          (first.andThen fun stop => s.elseEnd limit steps stop) = .found last →
          leadsWith (s.line next).code ["ELSE"] = false := by
        intro first found
        cases first with
        | found stop => exact ih stop found
        | absent => cases found
        | outOfSteps => cases found
      rw [elseEnd] at found
      split at found
      · rename_i rest tail
        cases ended : s.elseBody limit steps i rest with
        | absent => simp [ended, Extent.andThen] at found
        | outOfSteps => simp [ended, Extent.andThen] at found
        | found stop =>
            simp only [ended, Extent.andThen] at found
            split at found
            · -- the chain would end on a line with an `ELSE` of its own
              cases found
              rw [tail] at own
              cases own
            · exact ih stop found
      · split at found
        · rename_i none
          cases found
          rw [none] at after
          cases after
        · rename_i line following
          split at found
          · exact onward _ found
          · rename_i other
            cases found
            rw [following, Option.some.injEq] at after
            rw [← after]
            simpa using other

theorem opened_branch_else (s : Script) (steps : Nat) (b : Block) (opened : s.Opened steps b)
    (branch : b.kind = .branch) (own : afterEndElse (s.line (b.stop - 1)).code = none) (next : Nat)
    (after : s.nextCode b.stop s.size = some next) :
    leadsWith (s.line next).code ["ELSE"] = false := by
  obtain ⟨i, low, high, _, opener, found⟩ := opened
  rw [extentWithin, opener, branch] at found
  cases steps with
  | zero => simp [branchEnd] at found
  | succ steps =>
      simp only [branchEnd] at found
      cases ended : s.loopEnd s.size steps i (afterLeading (s.line i).code) with
      | absent => simp [ended, Extent.andThen] at found
      | outOfSteps => simp [ended, Extent.andThen] at found
      | found stop =>
          rw [ended] at found
          refine chain_found s s.size steps stop (b.stop - 1) found own next ?_
          rw [show b.stop - 1 + 1 = b.stop by omega]
          exact after

/-! ### Boundaries of the whole script -/

theorem mem_tail_flatMap (blocks : List Block) (spans : Block → List (Nat × Nat))
    (each : ∀ b ∈ blocks, ∃ stop rest, spans b = (b.start, stop) :: rest) (p : Nat) :
    p ∈ (blocks.flatMap spans).tail.map Prod.fst ↔
      (∃ b ∈ blocks.tail, b.start = p) ∨ ∃ b ∈ blocks, ∃ span ∈ (spans b).tail, span.1 = p := by
  cases blocks with
  | nil => simp
  | cons first rest =>
      obtain ⟨stop, more, whole⟩ := each first List.mem_cons_self
      rw [List.flatMap_cons, whole, List.cons_append, List.tail_cons, List.tail_cons, List.mem_map]
      constructor
      · rintro ⟨span, member, rfl⟩
        rcases List.mem_append.mp member with here | later
        · exact .inr ⟨first, List.mem_cons_self, span, by rw [whole]; exact here, rfl⟩
        · obtain ⟨b, inRest, inSpans⟩ := List.mem_flatMap.mp later
          obtain ⟨stop', more', whole'⟩ := each b (List.mem_cons_of_mem first inRest)
          rw [whole'] at inSpans
          rcases List.mem_cons.mp inSpans with rfl | inTail
          · exact .inl ⟨b, inRest, rfl⟩
          · exact .inr ⟨b, List.mem_cons_of_mem first inRest, span, by rw [whole']; exact inTail, rfl⟩
      · rintro (⟨b, inRest, rfl⟩ | ⟨b, member, span, inTail, rfl⟩)
        · obtain ⟨stop', more', whole'⟩ := each b (List.mem_cons_of_mem first inRest)
          refine ⟨(b.start, stop'), List.mem_append_right more ?_, rfl⟩
          refine List.mem_flatMap.mpr ⟨b, inRest, ?_⟩
          rw [whole']
          exact List.mem_cons_self
        · rcases List.mem_cons.mp member with rfl | inRest
          · rw [whole] at inTail
            exact ⟨span, List.mem_append_left _ inTail, rfl⟩
          · exact ⟨span, List.mem_append_right more
              (List.mem_flatMap.mpr ⟨b, inRest, List.mem_of_mem_tail inTail⟩), rfl⟩

theorem mem_plan_bounds (s : Script) (b : Block) (member : b ∈ s.plan) :
    b.start < b.stop ∧ b.stop ≤ s.size :=
  ((plan_tiles s).mem_bounds b.span (List.mem_map_of_mem member)).2

theorem mem_boundaries_iff (s : Script) (z : Sizing) (p : Nat) :
    p ∈ Chunk.boundaries (s.chunks z) ↔
      (∃ b ∈ s.plan.tail, b.start = p) ∨
        ∃ b ∈ s.plan, ∃ span ∈ ((Divider.mk z.normalized s).spans b).tail, span.1 = p := by
  rw [Chunk.boundaries_eq s _ _ (chunks_lines s z), spans]
  apply mem_tail_flatMap
  intro b member
  have room := (mem_plan_bounds s b member).1
  have tiles := Divider.spans_tiles (Divider.mk z.normalized s) b z.normalized_min_pos room
  cases spans : (Divider.mk z.normalized s).spans b with
  | nil =>
      rw [spans] at tiles
      exact absurd tiles (Nat.ne_of_lt room)
  | cons span rest =>
      rw [spans] at tiles
      exact ⟨span.2, rest, by rw [← tiles.1]⟩

theorem plan_start_or_tail (s : Script) (b : Block) (member : b ∈ s.plan) :
    b.start = 0 ∨ b ∈ s.plan.tail := by
  have tiles := plan_tiles s
  cases plan : s.plan with
  | nil =>
      rw [plan] at member
      cases member
  | cons first rest =>
      rw [plan] at member tiles
      rcases List.mem_cons.mp member with rfl | later
      · exact .inl tiles.1
      · exact .inr later

/-- A cut inside a block is inside no construct when the boundaries around the block are, and the first
code line of the script if the cut stands in front of it. -/
theorem isDetached_of_cut (s : Script) (b : Block) (member : b ∈ s.plan) (p : Nat) (above : b.start < p)
    (below : p < b.stop) (safe : s.SafeWithin b.start b.stop p)
    (around : ∀ b ∈ s.plan.tail, s.isDetached b.start = true)
    (front : s.prevCode 0 p = none → s.isDetached p = true) : s.isDetached p = true := by
  have inside := (mem_plan_bounds s b member).2
  cases after : s.nextCode p b.stop with
  | none =>
      have quiet := nextCode_eq_none s p b.stop after
      rw [isDetached_skip s p b.stop (by omega) quiet]
      by_cases last : b.stop < s.size
      · have inSpans : b.span ∈ s.plan.map Block.span := List.mem_map_of_mem member
        obtain ⟨span, inTail, same⟩ := (plan_tiles s).exists_next b.span inSpans last
        rw [← List.map_tail] at inTail
        obtain ⟨next, inPlan, rfl⟩ := List.mem_map.mp inTail
        have begins : next.start = b.stop := same
        rw [← begins]
        exact around next inPlan
      · have none : s.nextCode b.stop s.size = none := by
          simp [nextCode, show s.size - b.stop = 0 by omega, firstCode]
        rw [isDetached, none]
  | some next =>
      cases before : s.prevCode b.start p with
      | some prev => exact isDetached_of_safeWithin s b.start b.stop p next prev safe inside after before
      | none =>
          have quiet := prevCode_eq_none s b.start p before
          rcases plan_start_or_tail s b member with first | later
          · rw [first] at before
            exact front before
          · rw [← isDetached_skip s b.start p (by omega) quiet]
            exact around b later

end Script

/-- The chunks of a script whose parentheses never close before they open, whatever their sizing, are
divided at safe boundaries exactly when no block of the plan begins inside parentheses and no block
between constructs goes on with one. Cuts in front of the first code line add what this line begins
with. An `ELSE` is left over after a branch only when the branch ends on a line with an `END ELSE`. -/
theorem boundaries_safe_iff (s : Script) (z : Sizing)
    (opens : ∀ p ≤ s.size, 0 ≤ s.total Line.parens p 0) :
    ((∀ p ∈ Chunk.boundaries (s.chunks z), s.SafeBoundary p) ↔
      (∀ b ∈ s.plan.tail, s.total Line.parens b.start 0 = 0 ∧
        (b.kind = .sequence → s.isDetached b.start = true)) ∧
      ∀ p ∈ Chunk.boundaries (s.chunks z), s.prevCode 0 p = none → s.isDetached p = true) ∧
    ∀ b ∈ s.plan, b.kind = .branch → afterEndElse (s.line (b.stop - 1)).code = none →
      ∀ next, s.nextCode b.stop s.size = some next → leadsWith (s.line next).code ["ELSE"] = false := by
  refine ⟨⟨?_, ?_⟩, ?_⟩
  · intro safe
    refine ⟨fun b member => ?_, fun p member _ => (safe p member).detached⟩
    have here := safe b.start ((Script.mem_boundaries_iff s z b.start).mpr (.inl ⟨b, member, rfl⟩))
    exact ⟨here.closed, fun _ => here.detached⟩
  · rintro ⟨blocks, front⟩ p member
    have around : ∀ b ∈ s.plan.tail, s.isDetached b.start = true := by
      intro b inTail
      by_cases kind : b.kind = .sequence
      · exact (blocks b inTail).2 kind
      · exact Script.isDetached_of_opened s s.steps b
          (Script.plan_opened s b (List.mem_of_mem_tail inTail) kind)
    rcases (Script.mem_boundaries_iff s z p).mp member with
      ⟨b, inTail, rfl⟩ | ⟨b, inPlan, span, inTail, rfl⟩
    · exact ⟨(blocks b inTail).1, around b inTail⟩
    · obtain ⟨above, below, safe⟩ := Divider.spans_tail_safe s z b span inTail
      refine ⟨?_, Script.isDetached_of_cut s b inPlan span.1 above below safe around (front _ member)⟩
      -- The balance is zero where the block begins, not positive at the cut and never negative.
      have start : s.total Line.parens b.start 0 = 0 := by
        rcases Script.plan_start_or_tail s b inPlan with first | later
        · rw [first]
          rfl
        · exact (blocks b later).1
      have inside := (Script.mem_plan_bounds s b inPlan).2
      have low := opens span.1 (by omega)
      have closed := safe.closed
      have split := Script.total_add s Line.parens b.start (span.1 - b.start) 0
      rw [show b.start + (span.1 - b.start) = span.1 by omega, Nat.zero_add] at split
      omega
  · intro b member branch own next after
    exact Script.opened_branch_else s s.steps b
      (Script.plan_opened s b member (by simp [branch])) branch own next after

theorem boundaries_safe_iff_branch :
    Chunk.boundaries ((Script.ofLines ["IF @a = 1", "SELECT 1", "GO"]).chunks {}) = [2] ∧
      ∀ p ∈ Chunk.boundaries ((Script.ofLines ["IF @a = 1", "SELECT 1", "GO"]).chunks {}),
        (Script.ofLines ["IF @a = 1", "SELECT 1", "GO"]).SafeBoundary p := by
  have cuts : Chunk.boundaries ((Script.ofLines ["IF @a = 1", "SELECT 1", "GO"]).chunks {}) = [2] := by
    decide +kernel
  refine ⟨cuts, (boundaries_safe_iff (Script.ofLines ["IF @a = 1", "SELECT 1", "GO"]) {}
    (by decide +kernel)).1.mpr ⟨by decide +kernel, ?_⟩⟩
  rw [cuts]
  decide +kernel

/-- A branch whose body is a branch with both halves on one line: the `ELSE` of the inner branch ends on
this line, and the search for its end does not look for the `ELSE` on the next. -/
def leftoverElse : Script :=
  Script.ofLines ["IF @a = 1", "IF @b = 1 BEGIN PRINT 1 END ELSE PRINT 2", "ELSE PRINT 3"]

theorem leftoverElse_unsafe :
    ((∀ p ≤ leftoverElse.size, 0 ≤ leftoverElse.total Line.parens p 0) ∧
      leftoverElse.total Line.parens leftoverElse.size 0 = 0) ∧
    2 ∈ Chunk.boundaries (leftoverElse.chunks {}) ∧ ¬ leftoverElse.SafeBoundary 2 := by
  have begins : ∃ b ∈ leftoverElse.plan.tail, b.start = 2 := by decide +kernel
  refine ⟨by decide +kernel, (Script.mem_boundaries_iff leftoverElse {} 2).mpr (.inl begins), ?_⟩
  intro safe
  have attached : leftoverElse.isDetached 2 = false := by decide +kernel
  rw [safe.detached] at attached
  cases attached

end ScriptAtlas
