import ScriptAtlas.Proofs.Dependencies
import ScriptAtlas.Proofs.QuietChunks
import ScriptAtlas.Proofs.Refinement

/-!
The kind of adjacent lines is the foremost of their kinds. So a divided block has the foremost kind of
its parts, and lines without code that are folded into a block leave its kind as it was.
-/

namespace ScriptAtlas

namespace ChunkKind

/-! ### Precedence -/

/-- The place of a kind in the taxonomy, lower for higher precedence. -/
def rank (kind : ChunkKind) : Nat :=
  priority.idxOf kind

def foremost (a b : ChunkKind) : ChunkKind :=
  if a.rank ≤ b.rank then a else b

theorem eq_of_rank_eq {a b : ChunkKind} (known : a ∈ priority) (same : a.rank = b.rank) : a = b :=
  (List.idxOf_inj known).mp same

theorem rank_le_general {kind : ChunkKind} (known : kind ∈ priority) : kind.rank ≤ general.rank := by
  have last : ∀ kind ∈ priority, kind.rank ≤ general.rank := by decide
  exact last kind known

theorem dominant_mem (lines : List Line) : dominant lines ∈ priority := by
  have known := dominant_isKnown lines
  rwa [isKnown, List.elem_eq_mem, decide_eq_true_eq] at known

/-- A kind that some lines may have: general, or one that a line shows a sign of. -/
def Fits (lines : List Line) (kind : ChunkKind) : Prop :=
  kind = general ∨ ∃ l ∈ lines, signalled kind l = true

theorem fits_append (first second : List Line) (kind : ChunkKind) :
    Fits (first ++ second) kind ↔ Fits first kind ∨ Fits second kind := by
  simp only [Fits, List.mem_append, or_and_right, exists_or]
  exact or_or_distrib_left

theorem dominant_fits (lines : List Line) : Fits lines (dominant lines) := by
  rw [dominant]
  cases found : priority.find? fun kind => lines.any (signalled kind) with
  | none => exact .inl rfl
  | some kind =>
      have shown := List.find?_some found
      exact .inr (List.any_eq_true.mp shown)

theorem rank_dominant_le {lines : List Line} {kind : ChunkKind} (known : kind ∈ priority)
    (fits : Fits lines kind) : (dominant lines).rank ≤ kind.rank := by
  rcases fits with rfl | sign
  · exact rank_le_general (dominant_mem lines)
  · rw [dominant]
    cases found : priority.find? fun kind => lines.any (signalled kind) with
    | none => exact absurd (List.any_eq_true.mpr sign) (List.find?_eq_none.mp found kind known)
    | some first =>
        obtain ⟨shown, before, after, split, unshown⟩ := List.find?_eq_some_iff_append.mp found
        have absent : ∀ other, lines.any (signalled other) = true → other ∉ before := by
          intro other seen among
          have unseen := unshown other among
          rw [seen] at unseen
          cases unseen
        rw [Option.getD_some, rank, rank, split,
          List.idxOf_append_of_notMem (absent first shown),
          List.idxOf_append_of_notMem (absent kind (List.any_eq_true.mpr sign)), List.idxOf_cons_self]
        omega

/-- The dominant kind of some lines is the kind of lowest rank that fits them. -/
theorem dominant_eq {lines : List Line} {kind : ChunkKind} (known : kind ∈ priority)
    (fits : Fits lines kind)
    (least : ∀ other ∈ priority, Fits lines other → kind.rank ≤ other.rank) :
    dominant lines = kind := by
  apply eq_of_rank_eq (dominant_mem lines)
  apply Nat.le_antisymm
  · exact rank_dominant_le known fits
  · exact least _ (dominant_mem lines) (dominant_fits lines)

theorem dominant_append (first second : List Line) :
    dominant (first ++ second) = foremost (dominant first) (dominant second) := by
  rw [foremost]
  split
  · rename_i ahead
    apply dominant_eq (dominant_mem first)
    · exact (fits_append ..).mpr (.inl (dominant_fits first))
    · intro other known fits
      rcases (fits_append ..).mp fits with here | there
      · exact rank_dominant_le known here
      · exact Nat.le_trans ahead (rank_dominant_le known there)
  · rename_i behind
    apply dominant_eq (dominant_mem second)
    · exact (fits_append ..).mpr (.inr (dominant_fits second))
    · intro other known fits
      rcases (fits_append ..).mp fits with here | there
      · have above := rank_dominant_le known here
        omega
      · exact rank_dominant_le known there

/-- Of several ranges of lines together, the kind is that of one of them, and none takes precedence. -/
theorem dominant_flatMap {α : Type} (ranges : List α) (lines : α → List Line)
    (nonempty : ranges ≠ []) :
    (∃ range ∈ ranges, dominant (ranges.flatMap lines) = dominant (lines range)) ∧
      ∀ range ∈ ranges, (dominant (ranges.flatMap lines)).rank ≤ (dominant (lines range)).rank := by
  constructor
  · induction ranges with
    | nil => exact absurd rfl nonempty
    | cons range rest ih =>
        rw [List.flatMap_cons]
        by_cases last : rest = []
        · exact ⟨range, List.mem_cons_self, by rw [last, List.flatMap_nil, List.append_nil]⟩
        · rw [dominant_append, foremost]
          split
          · exact ⟨range, List.mem_cons_self, rfl⟩
          · obtain ⟨other, member, same⟩ := ih last
            exact ⟨other, List.mem_cons_of_mem range member, same⟩
  · intro range member
    apply rank_dominant_le (dominant_mem (lines range))
    refine (dominant_fits (lines range)).imp_right ?_
    rintro ⟨l, inside, sign⟩
    exact ⟨l, List.mem_flatMap.mpr ⟨range, member, inside⟩, sign⟩

end ChunkKind

/-! ### Lines without code -/

theorem Line.signalled_of_isQuiet (raw : Text) (index : Int) (kind : ChunkKind)
    (quiet : (read raw index).1.isQuiet = true) : ChunkKind.signalled kind (read raw index).1 = false := by
  have silent : ∀ l : Line, l.declared = [] → l.operations = [] → l.control = [] → l.code = [] →
      ChunkKind.signalled kind l = false := by
    intro l declared operations control code
    cases kind <;>
      simp [ChunkKind.signalled, Line.hasOperation, Line.hasControl, declared, operations, control, code] <;>
      decide
  rw [read] at quiet ⊢
  dsimp only at quiet ⊢
  split
  · exact silent _ rfl rfl rfl rfl
  · split
    · exact silent _ rfl rfl rfl rfl
    · rename_i visible uncommented
      simp [visible, uncommented, isQuiet, ofCode] at quiet

namespace Script

variable (lines : List Text)

theorem dominant_skip (lo middle hi : Nat) (low : lo ≤ middle) (high : middle ≤ hi)
    (quiet : (ofLines lines).isQuiet lo middle = true) :
    ChunkKind.dominant ((ofLines lines).slice lo hi) =
      ChunkKind.dominant ((ofLines lines).slice middle hi) := by
  have silent : ∀ kind, ((ofLines lines).slice lo middle).any (ChunkKind.signalled kind) = false := by
    intro kind
    rw [List.any_eq_false]
    intro l member
    obtain ⟨k, from_lo, below, inside, same⟩ := (mem_slice_iff _ lo middle l).mp member
    have blank := (isQuiet_iff _ lo middle).mp quiet k from_lo below
    rw [same, Line.isCode, Bool.not_eq_false'] at blank
    have among : l ∈ (ofLines lines).toList :=
      List.mem_of_mem_drop (List.mem_of_mem_take member)
    have unsigned : ∀ l ∈ (ofLines lines).toList,
        l.isQuiet = true → ChunkKind.signalled kind l = false :=
      ofLines_forall (fun raw index => Line.signalled_of_isQuiet raw index kind) lines
    rw [unsigned l among blank]
    exact Bool.false_ne_true
  rw [slice_append _ lo middle hi low high]
  simp only [ChunkKind.dominant, List.any_append, silent, Bool.false_or]

theorem isQuiet_join (s : Script) (lo middle hi : Nat) (first : s.isQuiet lo middle = true)
    (second : s.isQuiet middle hi = true) : s.isQuiet lo hi = true := by
  rw [isQuiet_iff] at first second ⊢
  intro k low high
  by_cases before : k < middle
  · exact first k low before
  · exact second k (by omega) high

def kindsOf (s : Script) (blocks : List Block) : List (Nat × ChunkKind) :=
  (blocks.filter fun b => !s.isQuiet b.start b.stop).map fun b =>
    (b.stop, ChunkKind.dominant (s.slice b.start b.stop))

theorem kindsOf_cons (s : Script) (b : Block) (rest : List Block) :
    s.kindsOf (b :: rest) =
      if s.isQuiet b.start b.stop then s.kindsOf rest
      else (b.stop, ChunkKind.dominant (s.slice b.start b.stop)) :: s.kindsOf rest := by
  rw [kindsOf, List.filter_cons]
  cases s.isQuiet b.start b.stop <;> rfl

theorem foldQuiet_kinds (pending : Option Nat) (lo : Nat) (blocks : List Block)
    (tiles : Tiles lo (ofLines lines).size (blocks.map Block.span))
    (behind : ∀ start ∈ pending, start ≤ lo ∧ (ofLines lines).isQuiet start lo = true) :
    (ofLines lines).kindsOf ((ofLines lines).foldQuiet pending blocks) =
      (ofLines lines).kindsOf blocks := by
  induction blocks generalizing pending lo with
  | nil =>
      have stop : lo = (ofLines lines).size := tiles
      cases pending with
      | none => rfl
      | some start =>
          have quiet := (behind start rfl).2
          rw [stop] at quiet
          rw [foldQuiet, kindsOf_cons, block, if_pos quiet]
  | cons b rest ih =>
      obtain ⟨start, nonempty, after⟩ := tiles
      simp only [Block.span] at start nonempty after
      rw [foldQuiet_cons, kindsOf_cons]
      split
      · rename_i quiet
        apply ih _ b.stop after
        intro begin member
        cases member
        cases pending with
        | none => exact ⟨Nat.le_of_lt nonempty, quiet⟩
        | some earlier =>
            obtain ⟨before, blank⟩ := behind earlier rfl
            rw [← start] at before blank
            exact ⟨by simp only [Option.getD_some]; omega, isQuiet_join _ _ _ _ blank quiet⟩
      · rename_i loud
        have later := ih none b.stop after (by simp)
        cases pending with
        | none => rw [kindsOf_cons, if_neg loud, later]
        | some earlier =>
            obtain ⟨before, blank⟩ := behind earlier rfl
            rw [← start] at before blank
            -- The wider block holds the code of `b`, and the lines in front of that show no sign.
            have wider : ¬ (ofLines lines).isQuiet earlier b.stop = true := by
              rw [isQuiet_iff] at loud ⊢
              exact fun quiet => loud fun k low => quiet k (by omega)
            have same := dominant_skip lines earlier b.start b.stop before (by omega) blank
            rw [kindsOf_cons]
            simp only [block, if_neg wider, same, later]

/-- The chunks of a block show which kind the block has: the foremost of theirs. -/
theorem group_kind (s : Script) (z : Sizing) (b : Block) (group : List Chunk) (member : b ∈ s.plan)
    (same : group.map Chunk.unlinked = ((Divider.mk z.normalized s).chunksOf b).map Chunk.unlinked) :
    (∃ c ∈ group, ChunkKind.dominant (s.slice b.start b.stop) = c.kind) ∧
      ∀ c ∈ group, (ChunkKind.dominant (s.slice b.start b.stop)).rank ≤ c.kind.rank := by
  let d : Divider := ⟨z.normalized, s⟩
  have room := ((plan_tiles s).mem_bounds b.span (List.mem_map_of_mem member)).2.1
  have tiles := d.spans_tiles b z.normalized_min_pos room
  have bare := d.group_bare b group same
  have nonempty : d.spans b ≠ [] := by
    intro none
    rw [none] at tiles
    exact absurd tiles (Nat.ne_of_lt room)
  obtain ⟨⟨span, inSpans, kind⟩, least⟩ :=
    ChunkKind.dominant_flatMap (d.spans b) (fun span => s.slice span.1 span.2) nonempty
  rw [tiles.slice_eq s]
  constructor
  · have view := List.mem_map_of_mem (f := fun span : Nat × Nat => Chunk.ofLines s span.1 span.2) inSpans
    rw [← bare] at view
    obtain ⟨c, inside, lines⟩ := List.mem_map.mp view
    exact ⟨c, inside, kind.trans (congrArg Chunk.kind lines).symm⟩
  · intro c inside
    have view := List.mem_map_of_mem (f := Chunk.bare) inside
    rw [bare] at view
    obtain ⟨span, inSpans, lines⟩ := List.mem_map.mp view
    have kind : ChunkKind.dominant (s.slice span.1 span.2) = c.kind := congrArg Chunk.kind lines
    rw [← kind]
    exact least span inSpans

end Script

/-- Adjacent lines together have the kind that takes precedence among their kinds. So a divided block has
the kind of highest precedence among its parts, and lines without code that stand in front of a block, or
are folded into it by the plan, do not change its kind. -/
theorem kinds_compose (lines : List Text) (z : Sizing) :
    let s := Script.ofLines lines
    (∀ lo middle hi, lo ≤ middle → middle ≤ hi →
      ChunkKind.dominant (s.slice lo hi) =
        ChunkKind.foremost (ChunkKind.dominant (s.slice lo middle))
          (ChunkKind.dominant (s.slice middle hi))) ∧
    (∀ c ∈ chunkLines lines z, ∀ p, c.part = some p →
      (∃ d ∈ Chunk.siblings (chunkLines lines z) c, p.parentKind = d.kind) ∧
        ∀ d ∈ Chunk.siblings (chunkLines lines z) c, p.parentKind.rank ≤ d.kind.rank) ∧
    (∀ lo middle hi, lo ≤ middle → middle ≤ hi → s.isQuiet lo middle = true →
      ChunkKind.dominant (s.slice lo hi) = ChunkKind.dominant (s.slice middle hi)) ∧
    s.kindsOf s.plan = s.kindsOf (s.sweep s.steps s.size 0 0) := by
  intro s
  refine ⟨?_, ?_, Script.dominant_skip lines, ?_⟩
  · intro lo middle hi low high
    rw [Script.slice_append s lo middle hi low high, ChunkKind.dominant_append]
  · intro c member p isPart
    obtain ⟨b, inPlan, group, inside, same, _, _, all⟩ := Script.exists_group s z c member
    have parts := (Divider.chunksOf_partsOf _ b).congr same
    have kind : p.parentKind = ChunkKind.dominant (s.slice b.start b.stop) :=
      (parts.part_eq c inside p isPart).1
    rw [chunkLines, all (by simp [isPart]), kind]
    exact Script.group_kind s z b group inPlan same
  · exact Script.foldQuiet_kinds lines none 0 _
      (Script.sweep_tiles s s.steps s.size 0 0 (Nat.le_refl 0) (Nat.zero_le _)) (by simp)

/-- A branch with a comment in front is cut into its header and the rest of its body. It is conditional like
the header, as it is without the comment. -/
theorem kinds_compose_branch :
    let lines : List Text := ["-- note", "IF @a = 1", "BEGIN", "SELECT 1", "END"]
    let z : Sizing := { target := 1, min := 2, max := 3 }
    let s := Script.ofLines lines
    (∃ c ∈ chunkLines lines z, ∃ p, c.part = some p ∧ p.parentKind = .conditional ∧
      ∀ d ∈ Chunk.siblings (chunkLines lines z) c, p.parentKind.rank ≤ d.kind.rank) ∧
    s.isQuiet 0 1 = true ∧
      ChunkKind.dominant (s.slice 0 5) = ChunkKind.dominant (s.slice 1 5) := by
  intro lines z s
  have part : ∃ c ∈ chunkLines lines z, ∃ p ∈ c.part, p.parentKind = .conditional := by decide +kernel
  have quiet : s.isQuiet 0 1 = true := by decide +kernel
  obtain ⟨_, parts, folded, _⟩ := kinds_compose lines z
  obtain ⟨c, member, p, isPart, kind⟩ := part
  exact ⟨⟨c, member, p, isPart, kind, (parts c member p isPart).2⟩, quiet,
    folded 0 1 5 (by decide) (by decide) quiet⟩

end ScriptAtlas
