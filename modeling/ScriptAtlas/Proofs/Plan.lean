import ScriptAtlas.Block.Plan
import ScriptAtlas.Proofs.Extent

/-!
The plan of a script covers its lines: the blocks of the sweep, and the blocks after those without code
were folded into their successors, follow each other without a gap from the first line to the last.
-/

namespace ScriptAtlas

/-! ### Tilings -/

/-- Spans `[a, b)` that follow each other without a gap from `lo` to `hi`, none of them empty. -/
def Tiles : Nat → Nat → List (Nat × Nat) → Prop
  | lo, hi, [] => lo = hi
  | lo, hi, span :: rest => span.1 = lo ∧ span.1 < span.2 ∧ Tiles span.2 hi rest

namespace Tiles

theorem le {lo hi : Nat} {spans : List (Nat × Nat)} (tiles : Tiles lo hi spans) : lo ≤ hi := by
  induction spans generalizing lo with
  | nil => exact Nat.le_of_eq tiles
  | cons span rest ih =>
      obtain ⟨start, nonempty, after⟩ := tiles
      have end_le := ih after
      omega

theorem single {lo hi : Nat} (nonempty : lo < hi) : Tiles lo hi [(lo, hi)] :=
  ⟨rfl, nonempty, rfl⟩

theorem append {lo middle hi : Nat} {first second : List (Nat × Nat)}
    (left : Tiles lo middle first) (right : Tiles middle hi second) :
    Tiles lo hi (first ++ second) := by
  induction first generalizing lo with
  | nil =>
      rw [show lo = middle from left]
      exact right
  | cons span rest ih =>
      obtain ⟨start, nonempty, after⟩ := left
      exact ⟨start, nonempty, ih after⟩

theorem flatMap {lo hi : Nat} {α : Type} (items : List α) (span : α → Nat × Nat)
    (inner : α → List (Nat × Nat)) (tiles : Tiles lo hi (items.map span))
    (each : ∀ item ∈ items, (span item).1 < (span item).2 →
      Tiles (span item).1 (span item).2 (inner item)) :
    Tiles lo hi (items.flatMap inner) := by
  induction items generalizing lo with
  | nil => exact tiles
  | cons item rest ih =>
      obtain ⟨start, nonempty, after⟩ := tiles
      rw [List.flatMap_cons]
      have here := each item List.mem_cons_self nonempty
      rw [start] at here
      exact here.append (ih after fun other member => each other (List.mem_cons_of_mem _ member))

theorem mem_bounds {lo hi : Nat} {spans : List (Nat × Nat)} (tiles : Tiles lo hi spans) :
    ∀ span ∈ spans, lo ≤ span.1 ∧ span.1 < span.2 ∧ span.2 ≤ hi := by
  induction spans generalizing lo with
  | nil => intro span member; cases member
  | cons first rest ih =>
      obtain ⟨start, nonempty, after⟩ := tiles
      intro span member
      rcases List.mem_cons.mp member with rfl | later
      · exact ⟨Nat.le_of_eq start.symm, nonempty, after.le⟩
      · have bounds := ih after span later
        omega

theorem head_eq {lo hi : Nat} {spans : List (Nat × Nat)} (tiles : Tiles lo hi spans)
    (span : Nat × Nat) (first : spans.head? = some span) : span.1 = lo := by
  cases spans with
  | nil => cases first
  | cons other rest =>
      cases first
      exact tiles.1

theorem last_eq {lo hi : Nat} {spans : List (Nat × Nat)} (tiles : Tiles lo hi spans)
    (span : Nat × Nat) (last : spans.getLast? = some span) : span.2 = hi := by
  induction spans generalizing lo with
  | nil => cases last
  | cons first rest ih =>
      obtain ⟨start, nonempty, after⟩ := tiles
      cases rest with
      | nil =>
          cases last
          exact after
      | cons second others => exact ih after (by simpa [List.getLast?_cons_cons] using last)

theorem next_eq {lo hi : Nat} {spans : List (Nat × Nat)} (tiles : Tiles lo hi spans) (k : Nat)
    (span next : Nat × Nat) (here : spans[k]? = some span) (after : spans[k + 1]? = some next) :
    next.1 = span.2 := by
  induction spans generalizing lo k with
  | nil => cases here
  | cons first rest ih =>
      obtain ⟨start, nonempty, onward⟩ := tiles
      cases k with
      | zero =>
          cases here
          exact onward.head_eq next (by simpa [List.head?_eq_getElem?] using after)
      | succ k => exact ih onward k here after

theorem tail_after {lo hi : Nat} {spans : List (Nat × Nat)} (tiles : Tiles lo hi spans) :
    ∀ span ∈ spans.tail, lo < span.1 := by
  cases spans with
  | nil => intro span member; cases member
  | cons first rest =>
      obtain ⟨start, nonempty, after⟩ := tiles
      intro span later
      have bounds := after.mem_bounds span later
      omega

theorem starts_ascend {lo hi : Nat} {spans : List (Nat × Nat)} (tiles : Tiles lo hi spans) :
    spans.Pairwise fun span later => span.1 < later.1 := by
  induction spans generalizing lo with
  | nil => exact .nil
  | cons first rest ih =>
      obtain ⟨start, nonempty, after⟩ := tiles
      refine List.pairwise_cons.mpr ⟨?_, ih after⟩
      intro later member
      have bounds := after.mem_bounds later member
      omega

theorem exists_next {lo hi : Nat} {spans : List (Nat × Nat)} (tiles : Tiles lo hi spans)
    (span : Nat × Nat) (member : span ∈ spans) (below : span.2 < hi) :
    ∃ next ∈ spans.tail, next.1 = span.2 := by
  induction spans generalizing lo with
  | nil => cases member
  | cons first rest ih =>
      obtain ⟨start, nonempty, after⟩ := tiles
      rcases List.mem_cons.mp member with rfl | later
      · cases rest with
        | nil => exact absurd after (Nat.ne_of_lt below)
        | cons second others => exact ⟨second, List.mem_cons_self, after.1⟩
      · obtain ⟨next, inRest, same⟩ := ih after later
        exact ⟨next, List.mem_of_mem_tail inRest, same⟩

theorem eq_single {lo hi : Nat} {spans : List (Nat × Nat)} (tiles : Tiles lo hi spans) (room : lo < hi)
    (few : spans.length < 2) : spans = [(lo, hi)] := by
  match spans, tiles, few with
  | [], stop, _ => exact absurd stop (Nat.ne_of_lt room)
  | [span], ⟨start, _, stop⟩, _ => exact congrArg (fun span => [span]) (Prod.ext start stop)

end Tiles

/-! ### The sweep -/

namespace Block

def span (b : Block) : Nat × Nat :=
  (b.start, b.stop)

end Block

namespace Script

@[simp] theorem block_span (s : Script) (lo hi : Nat) (kind : BlockKind) :
    (s.block lo hi kind).span = (lo, hi) :=
  rfl

theorem between_tiles (s : Script) (lo hi : Nat) (ordered : lo ≤ hi) :
    Tiles lo hi ((s.between lo hi).map Block.span) := by
  rw [between]
  split
  · rename_i room
    exact Tiles.single room
  · exact Nat.le_antisymm ordered (by omega)

theorem openedBlock_eq_some (s : Script) (steps i : Nat) (kind : BlockKind) (last : Nat)
    (inside : i < s.size) (opened : s.openedBlock steps i = some (kind, last)) :
    (s.line i).opener = some kind ∧ s.extentWithin s.size steps i = .found last ∧ i ≤ last ∧
      last < s.size := by
  rw [openedBlock] at opened
  split at opened
  · cases opened
  · rename_i kind' opener
    split at opened
    · cases opened
    · rename_i last' found
      split at opened
      · cases opened
        cases extent : s.extentWithin s.size steps i with
        | found stop =>
            rw [extent, Extent.last?, Option.some.injEq] at found
            subst found
            exact ⟨opener, rfl, extentWithin_bounds s s.size steps i stop inside extent⟩
        | absent => simp [extent, Extent.last?] at found
        | outOfSteps => simp [extent, Extent.last?] at found
      · cases opened

theorem sweep_tiles (s : Script) (steps count pending i : Nat) (behind : pending ≤ i)
    (inside : pending ≤ s.size) :
    Tiles pending s.size ((s.sweep steps count pending i).map Block.span) := by
  induction count generalizing pending i with
  | zero => exact between_tiles s pending s.size inside
  | succ count ih =>
      rw [sweep]
      split
      · exact between_tiles s pending s.size inside
      · rename_i room
        split
        · exact ih pending (i + 1) (by omega) inside
        · rename_i kind last opened
          obtain ⟨_, _, low, high⟩ := openedBlock_eq_some s steps i kind last (by omega) opened
          rw [List.map_append, List.map_cons, block_span]
          have before := between_tiles s pending i behind
          have after := ih (last + 1) (last + 1) (Nat.le_refl _) (by omega)
          exact before.append ⟨rfl, by simp only; omega, after⟩

theorem foldQuiet_cons (s : Script) (pending : Option Nat) (b : Block) (rest : List Block) :
    s.foldQuiet pending (b :: rest) =
      if s.isQuiet b.start b.stop then s.foldQuiet (some (pending.getD b.start)) rest
      else (match pending with
        | none => b
        | some start => s.block start b.stop b.kind) :: s.foldQuiet none rest := by
  cases pending <;> simp only [foldQuiet]

theorem foldQuiet_tiles (s : Script) (pending : Option Nat) (lo : Nat) (blocks : List Block)
    (tiles : Tiles lo s.size (blocks.map Block.span))
    (behind : ∀ start ∈ pending, start < lo) :
    Tiles (pending.getD lo) s.size ((s.foldQuiet pending blocks).map Block.span) := by
  induction blocks generalizing pending lo with
  | nil =>
      cases pending with
      | none => exact tiles
      | some start =>
          have before := behind start rfl
          have stop : lo = s.size := tiles
          exact Tiles.single (by simp only [Option.getD_some]; omega)
  | cons b rest ih =>
      obtain ⟨start, nonempty, after⟩ := tiles
      simp only [Block.span] at start nonempty after
      rw [foldQuiet_cons]
      split
      · have folded := ih (some (pending.getD b.start)) b.stop after (by
          intro begin member
          cases pending with
          | none => cases member; exact nonempty
          | some earlier =>
              cases member
              have before := behind earlier rfl
              simp only [Option.getD_some]
              omega)
        rw [Option.getD_some, start] at folded
        rw [start]
        exact folded
      · cases pending with
        | none => exact ⟨start, nonempty, ih none b.stop after (by simp)⟩
        | some earlier =>
            have before := behind earlier rfl
            refine ⟨rfl, ?_, ih none b.stop after (by simp)⟩
            simp only [block_span]
            omega

/-- The construct that a block is named for opens on its first code line and ends on its last line. -/
def Opened (s : Script) (steps : Nat) (b : Block) : Prop :=
  ∃ i, b.start ≤ i ∧ i < b.stop ∧ (∀ k, b.start ≤ k → k < i → (s.line k).isCode = false) ∧
    (s.line i).opener = some b.kind ∧ s.extentWithin s.size steps i = .found (b.stop - 1)

theorem mem_between (s : Script) (lo hi : Nat) (b : Block) (member : b ∈ s.between lo hi) :
    b.kind = .sequence := by
  rw [between] at member
  split at member
  · rw [List.mem_singleton] at member
    rw [member]
    rfl
  · cases member

theorem sweep_opened (s : Script) (steps count pending i : Nat) :
    ∀ b ∈ s.sweep steps count pending i, b.kind ≠ .sequence → s.Opened steps b := by
  induction count generalizing pending i with
  | zero =>
      intro b member construct
      exact absurd (mem_between s pending s.size b member) construct
  | succ count ih =>
      rw [sweep]
      split
      · intro b member construct
        exact absurd (mem_between s pending s.size b member) construct
      · rename_i room
        split
        · exact ih pending (i + 1)
        · rename_i kind last opened
          obtain ⟨opener, found, low, _⟩ := openedBlock_eq_some s steps i kind last (by omega) opened
          intro b member construct
          rcases List.mem_append.mp member with before | after
          · exact absurd (mem_between s pending i b before) construct
          · rcases List.mem_cons.mp after with rfl | later
            · refine ⟨i, Nat.le_refl i, Nat.lt_succ_of_le low, ?_, opener, found⟩
              intro k from_i before_i
              exact absurd before_i (Nat.not_lt.mpr from_i)
            · exact ih (last + 1) (last + 1) b later construct

/-- A block `own` together with lines without code in front of it. -/
structure Widens (s : Script) (own b : Block) : Prop where
  before : b.start ≤ own.start
  quiet : ∀ k, b.start ≤ k → k < own.start → (s.line k).isCode = false
  stop : b.stop = own.stop
  kind : b.kind = own.kind

/-- What folding leaves: the blocks that hold code, each with the quiet lines before it, and after the
last of them one block for the quiet lines that end the script. -/
theorem mem_foldQuiet (s : Script) (pending : Option Nat) (lo : Nat) (blocks : List Block)
    (tiles : Tiles lo s.size (blocks.map Block.span))
    (behind : ∀ start ∈ pending, start < lo ∧ ∀ k, start ≤ k → k < lo → (s.line k).isCode = false) :
    ∀ b ∈ s.foldQuiet pending blocks,
      (∃ own ∈ blocks, s.isQuiet own.start own.stop = false ∧ s.Widens own b) ∨
        b.kind = .sequence ∧ b.stop = s.size := by
  induction blocks generalizing pending lo with
  | nil =>
      intro b member
      cases pending with
      | none => cases member
      | some start =>
          rw [foldQuiet, List.mem_singleton] at member
          rw [member]
          exact .inr ⟨rfl, rfl⟩
  | cons own rest ih =>
      obtain ⟨start, nonempty, after⟩ := tiles
      simp only [Block.span] at start nonempty after
      intro b member
      rw [foldQuiet_cons] at member
      split at member
      · rename_i silent
        have silent := (isQuiet_iff s own.start own.stop).mp silent
        -- The lines that wait grow by the block, and none of them holds code.
        have waiting : ∀ begin ∈ some (pending.getD own.start), begin < own.stop ∧
            ∀ k, begin ≤ k → k < own.stop → (s.line k).isCode = false := by
          rintro _ ⟨⟩
          cases pending with
          | none => exact ⟨nonempty, silent⟩
          | some earlier =>
              obtain ⟨before, quiet⟩ := behind earlier rfl
              simp only [Option.getD_some]
              refine ⟨by omega, ?_⟩
              intro k from_start before_stop
              by_cases inside : own.start ≤ k
              · exact silent k inside before_stop
              · exact quiet k from_start (by omega)
        refine (ih _ own.stop after waiting b member).imp_left ?_
        rintro ⟨other, inRest, found⟩
        exact ⟨other, List.mem_cons_of_mem own inRest, found⟩
      · rename_i loud
        rcases List.mem_cons.mp member with rfl | later
        · refine .inl ⟨own, List.mem_cons_self, by simpa using loud, ?_⟩
          cases pending with
          | none => exact ⟨Nat.le_refl _, fun k low high => absurd high (Nat.not_lt.mpr low), rfl, rfl⟩
          | some earlier =>
              obtain ⟨before, quiet⟩ := behind earlier rfl
              exact ⟨by simp only [block]; omega, fun k low high => quiet k low (by omega), rfl, rfl⟩
        · refine (ih none own.stop after (by simp) b later).imp_left ?_
          rintro ⟨other, inRest, found⟩
          exact ⟨other, List.mem_cons_of_mem own inRest, found⟩

theorem mem_plan (s : Script) (b : Block) (member : b ∈ s.plan) :
    (∃ own ∈ s.sweep s.steps s.size 0 0, s.isQuiet own.start own.stop = false ∧ s.Widens own b) ∨
      b.kind = .sequence ∧ b.stop = s.size :=
  mem_foldQuiet s none 0 _ (sweep_tiles s s.steps s.size 0 0 (Nat.le_refl 0) (Nat.zero_le _))
    (by simp) b member

theorem Opened.widen {s : Script} {steps : Nat} {own b : Block} (opened : s.Opened steps own)
    (wide : s.Widens own b) : s.Opened steps b := by
  obtain ⟨i, low, high, silent, opener, found⟩ := opened
  refine ⟨i, Nat.le_trans wide.before low, ?_, ?_, ?_, ?_⟩
  · rw [wide.stop]
    exact high
  · intro k from_start before_i
    by_cases inside : own.start ≤ k
    · exact silent k inside before_i
    · exact wide.quiet k from_start (by omega)
  · rw [wide.kind]
    exact opener
  · rw [wide.stop]
    exact found

theorem plan_opened (s : Script) (b : Block) (member : b ∈ s.plan) (construct : b.kind ≠ .sequence) :
    s.Opened s.steps b := by
  rcases mem_plan s b member with ⟨own, swept, _, wide⟩ | ⟨rest, _⟩
  · have opened := sweep_opened s s.steps s.size 0 0 own swept (wide.kind ▸ construct)
    exact opened.widen wide
  · exact absurd rest construct

/-- The plan covers every line of a script exactly once, in order. -/
theorem plan_tiles (s : Script) : Tiles 0 s.size (s.plan.map Block.span) :=
  foldQuiet_tiles s none 0 _ (sweep_tiles s s.steps s.size 0 0 (Nat.le_refl 0) (Nat.zero_le _))
    (by simp)

end Script

end ScriptAtlas
