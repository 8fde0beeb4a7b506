import ScriptAtlas.Chunk.Sequence
import ScriptAtlas.Proofs.Division

/-!
The chunks of a script partition it. Numbering, linking and describing change nothing that a chunk
says about its lines, and the lines of the chunks tile the script.
-/

namespace ScriptAtlas

namespace Chunk

/-! ### What the passes over the chunks leave as it is -/

/-- A chunk without its number, description and links. -/
def unlinked (c : Chunk) : Chunk :=
  { c with
    id := 0
    title := []
    summary := []
    dependencies := []
    continuesFrom := 0
    continuesIn := 0 }

/-- A chunk as its lines alone determine it. -/
def bare (c : Chunk) : Chunk :=
  { c.unlinked with part := none }

theorem numberFrom_unlinked (id : Int) (chunks : List Chunk) :
    (numberFrom id chunks).map unlinked = chunks.map unlinked := by
  induction chunks generalizing id with
  | nil => rfl
  | cons c rest ih =>
      rw [numberFrom, List.map_cons, List.map_cons, ih]
      rfl

theorem linkContinuationsAfter_unlinked (previous : Option Chunk) (chunks : List Chunk) :
    (linkContinuationsAfter previous chunks).map unlinked = chunks.map unlinked := by
  induction chunks generalizing previous with
  | nil => rfl
  | cons c rest ih =>
      rw [linkContinuationsAfter, List.map_cons, List.map_cons, ih]
      rfl

theorem linkContinuationsAfter_ids (previous : Option Chunk) (chunks : List Chunk) :
    (linkContinuationsAfter previous chunks).map id = chunks.map id := by
  induction chunks generalizing previous with
  | nil => rfl
  | cons c rest ih =>
      rw [linkContinuationsAfter, List.map_cons, List.map_cons, ih]
      rfl

theorem linkDependenciesFrom_unlinked (declared : Declarations) (chunks : List Chunk) :
    (linkDependenciesFrom declared chunks).map unlinked = chunks.map unlinked := by
  induction chunks generalizing declared with
  | nil => rfl
  | cons c rest ih =>
      rw [linkDependenciesFrom, List.map_cons, List.map_cons, ih]
      rfl

theorem linkDependenciesFrom_ids (declared : Declarations) (chunks : List Chunk) :
    (linkDependenciesFrom declared chunks).map id = chunks.map id := by
  induction chunks generalizing declared with
  | nil => rfl
  | cons c rest ih =>
      rw [linkDependenciesFrom, List.map_cons, List.map_cons, ih]

theorem numberFrom_id (id : Int) (chunks : List Chunk) (k : Nat) (c : Chunk)
    (here : (numberFrom id chunks)[k]? = some c) : c.id = id + k := by
  induction chunks generalizing id k with
  | nil => cases here
  | cons first rest ih =>
      cases k with
      | zero =>
          cases here
          simp
      | succ k =>
          have later := ih (id + 1) k here
          omega

end Chunk

namespace Script

theorem chunks_unlinked (s : Script) (z : Sizing) :
    (s.chunks z).map Chunk.unlinked =
      (s.plan.flatMap (Divider.mk z.normalized s).chunksOf).map Chunk.unlinked := by
  have described : Chunk.unlinked ∘ Chunk.described = Chunk.unlinked := rfl
  rw [chunks, List.map_map, described, Chunk.linkDependencies, Chunk.linkDependenciesFrom_unlinked,
    Chunk.linkContinuations, Chunk.linkContinuationsAfter_unlinked, Chunk.numberFrom_unlinked]

theorem mem_chunks {s : Script} {z : Sizing} {c : Chunk} (member : c ∈ s.chunks z) :
    ∃ b ∈ s.plan, ∃ d ∈ Divider.chunksOf ⟨z.normalized, s⟩ b, c.unlinked = d.unlinked := by
  have same : c.unlinked ∈ (s.plan.flatMap (Divider.mk z.normalized s).chunksOf).map Chunk.unlinked :=
    chunks_unlinked s z ▸ List.mem_map_of_mem member
  obtain ⟨d, inside, equal⟩ := List.mem_map.mp same
  obtain ⟨b, planned, here⟩ := List.mem_flatMap.mp inside
  exact ⟨b, planned, d, here, equal.symm⟩

theorem chunks_id (s : Script) (z : Sizing) (k : Nat) (c : Chunk)
    (here : (s.chunks z)[k]? = some c) : c.id = k + 1 := by
  have described : Chunk.id ∘ Chunk.described = Chunk.id := rfl
  have ids : (s.chunks z).map Chunk.id =
      (Chunk.numberFrom 1 (s.plan.flatMap (Divider.mk z.normalized s).chunksOf)).map Chunk.id := by
    rw [chunks, List.map_map, described, Chunk.linkDependencies, Chunk.linkDependenciesFrom_ids,
      Chunk.linkContinuations, Chunk.linkContinuationsAfter_ids]
  have numbered := congrArg (·[k]?) ids
  simp only [List.getElem?_map, here, Option.map_some] at numbered
  obtain ⟨other, found, same⟩ := Option.map_eq_some_iff.mp numbered.symm
  rw [← same, Chunk.numberFrom_id 1 _ k other found]
  omega

end Script

/-! ### The lines of the chunks -/

theorem Sizing.normalized_min_pos (z : Sizing) : 0 < z.normalized.min := by
  simp only [normalized, default]
  split <;> omega

namespace Divider

def spans (d : Divider) (b : Block) : List (Nat × Nat) :=
  if !d.isOversized b.start b.stop then [b.span]
  else if (d.parts b.start b.stop).1.length < 2 then [b.span]
  else (d.parts b.start b.stop).1.map Block.span

theorem spans_tiles (d : Divider) (b : Block) (positive : 0 < d.sizing.min)
    (room : b.start < b.stop) : Tiles b.start b.stop (d.spans b) := by
  rw [spans]
  split
  · exact Tiles.single room
  · split
    · exact Tiles.single room
    · exact parts_tiles d b.start b.stop positive room

theorem partChunks_lines (d : Divider) (part : Part) (ordinal : Int) (parts : List Block) :
    (d.partChunks part ordinal parts).map (fun c => { c.unlinked with part := none }) =
      parts.map fun p => Chunk.ofLines d.script p.start p.stop := by
  induction parts generalizing ordinal with
  | nil => rfl
  | cons p rest ih =>
      rw [partChunks, List.map_cons, List.map_cons, ih]
      rfl

theorem chunksOf_lines (d : Divider) (b : Block) :
    (d.chunksOf b).map (fun c => { c.unlinked with part := none }) =
      (d.spans b).map fun span => Chunk.ofLines d.script span.1 span.2 := by
  rw [chunksOf, spans]
  split
  · rfl
  · dsimp only
    split
    · rfl
    · rw [partChunks_lines, List.map_map]
      rfl

/-- What numbers, links and describes the chunks of a block leaves them their lines. -/
theorem group_bare (d : Divider) (b : Block) (group : List Chunk)
    (same : group.map Chunk.unlinked = (d.chunksOf b).map Chunk.unlinked) :
    group.map Chunk.bare = (d.spans b).map fun span => Chunk.ofLines d.script span.1 span.2 := by
  have lines := congrArg (List.map fun c : Chunk => { c with part := none }) same
  rw [List.map_map, List.map_map] at lines
  exact lines.trans (d.chunksOf_lines b)

end Divider

namespace Script

def spans (s : Script) (z : Sizing) : List (Nat × Nat) :=
  s.plan.flatMap (Divider.mk z.normalized s).spans

/-- The chunks cover every line exactly once, in order. -/
theorem spans_tiles (s : Script) (z : Sizing) : Tiles 0 s.size (s.spans z) := by
  refine Tiles.flatMap s.plan Block.span _ (plan_tiles s) ?_
  intro b _ room
  exact Divider.spans_tiles _ b z.normalized_min_pos room

theorem chunks_lines (s : Script) (z : Sizing) :
    (s.chunks z).map (fun c => { c.unlinked with part := none }) =
      (s.spans z).map fun span => Chunk.ofLines s span.1 span.2 := by
  have erased := congrArg (List.map fun c : Chunk => { c with part := none }) (chunks_unlinked s z)
  simp only [List.map_map, List.map_flatMap] at erased
  rw [spans, List.map_flatMap]
  refine Eq.trans erased ?_
  congr
  funext b
  exact Divider.chunksOf_lines (Divider.mk z.normalized s) b

theorem chunks_bare (s : Script) (z : Sizing) :
    (s.chunks z).map Chunk.bare = (s.spans z).map fun span => Chunk.ofLines s span.1 span.2 :=
  chunks_lines s z

theorem chunks_getElem (s : Script) (z : Sizing) (k : Nat) (c : Chunk)
    (here : (s.chunks z)[k]? = some c) :
    ∃ span, (s.spans z)[k]? = some span ∧ c.start = span.1 + 1 ∧ c.stop = span.2 ∧
      c.content = Text.join "\n" ((s.slice span.1 span.2).map Line.raw) ∧
      c.complexity = s.weight span.1 span.2 := by
  have lines := congrArg (·[k]?) (chunks_lines s z)
  simp only [List.getElem?_map, here, Option.map_some] at lines
  obtain ⟨span, found, same⟩ := Option.map_eq_some_iff.mp lines.symm
  have whole := congrArg (fun c : Chunk => (c.start, c.stop, c.content, c.complexity)) same
  simp only [Chunk.ofLines, Chunk.unlinked, Prod.mk.injEq] at whole
  exact ⟨span, found, whole.1.symm, whole.2.1.symm, whole.2.2.1.symm, whole.2.2.2.symm⟩

theorem chunks_length (s : Script) (z : Sizing) : (s.chunks z).length = (s.spans z).length := by
  simpa using congrArg List.length (chunks_lines s z)

/-! ### Source lines -/

theorem readFrom_append (index : Nat) (above below : List Text) :
    readFrom index (above ++ below) = readFrom index above ++ readFrom (index + above.length) below := by
  induction above generalizing index with
  | nil => rfl
  | cons raw above ih =>
      rw [List.cons_append, readFrom, ih, readFrom, List.cons_append, List.length_cons]
      congr 3
      omega

theorem ofLines_forall {holds : Line → Prop} (each : ∀ raw index, holds (Line.read raw index).1)
    (lines : List Text) : ∀ l ∈ (ofLines lines).toList, holds l := by
  have from_index : ∀ index, ∀ l ∈ (readFrom index lines).map Prod.fst, holds l := by
    induction lines with
    | nil => simp [readFrom]
    | cons raw rest ih =>
        intro index
        rw [readFrom, List.map_cons, List.forall_mem_cons]
        exact ⟨each raw index, ih (index + 1)⟩
  exact from_index 0

theorem readFrom_raw (index : Nat) (lines : List Text) :
    ((readFrom index lines).map Prod.fst).map Line.raw = lines := by
  induction lines generalizing index with
  | nil => rfl
  | cons raw rest ih =>
      rw [readFrom, List.map_cons, List.map_cons, ih]
      congr 1
      rw [Line.read]
      dsimp only
      repeat' split
      all_goals rfl

theorem read_weight (raw : Text) (index : Int) :
    (Line.read raw index).1.weight = (Line.classify raw 0).weight := by
  rw [Line.classify, Line.read, Line.read]
  dsimp only
  repeat' split
  all_goals rfl

theorem readFrom_weight (index : Nat) (lines : List Text) :
    ((readFrom index lines).map Prod.fst).map Line.weight =
      lines.map fun raw => (Line.classify raw 0).weight := by
  induction lines generalizing index with
  | nil => rfl
  | cons raw rest ih =>
      rw [readFrom, List.map_cons, List.map_cons, List.map_cons, ih, read_weight]

theorem ofLines_size (lines : List Text) : (ofLines lines).size = lines.length := by
  have raws := congrArg List.length (readFrom_raw 0 lines)
  simpa [ofLines, read] using raws

theorem ofLines_slice_map {α : Type} (lines : List Text) (lo hi : Nat) (view : Line → α)
    (expected : Text → α)
    (views : ((readFrom 0 lines).map Prod.fst).map view = lines.map expected) :
    ((ofLines lines).slice lo hi).map view = ((lines.drop lo).take (hi - lo)).map expected := by
  simp only [slice, ofLines, read, List.map_take, List.map_drop, views]

end Script

def Chunk.sourceLines (c : Chunk) (lines : List Text) : List Text :=
  (lines.drop (c.start - 1).toNat).take (c.stop - c.start + 1).toNat

/-- The chunks of a script are numbered from one in order, cover its lines without gap or overlap, and
hold their own lines and the weight of these. -/
theorem chunkLines_partition (lines : List Text) (z : Sizing) :
    (chunkLines lines z = [] ↔ lines = []) ∧
    (∀ (k : Nat) (c : Chunk), (chunkLines lines z)[k]? = some c → c.id = k + 1) ∧
    (∀ c, (chunkLines lines z).head? = some c → c.start = 1) ∧
    (∀ c, (chunkLines lines z).getLast? = some c → c.stop = lines.length) ∧
    (∀ k c next, (chunkLines lines z)[k]? = some c → (chunkLines lines z)[k + 1]? = some next →
      next.start = c.stop + 1) ∧
    ∀ c ∈ chunkLines lines z, 1 ≤ c.start ∧ c.start ≤ c.stop ∧ c.stop ≤ lines.length ∧
      c.content = Text.join "\n" (c.sourceLines lines) ∧
      c.complexity = ((c.sourceLines lines).map fun raw => (Line.classify raw 0).weight).sum := by
  have tiles := Script.spans_tiles (Script.ofLines lines) z
  have length := Script.chunks_length (Script.ofLines lines) z
  have at_k := Script.chunks_getElem (Script.ofLines lines) z
  rw [Script.ofLines_size] at tiles
  simp only [chunkLines]
  refine ⟨⟨?_, ?_⟩, Script.chunks_id (Script.ofLines lines) z, ?_, ?_, ?_, ?_⟩
  · intro none
    rw [none, List.length_nil] at length
    rw [List.length_eq_zero_iff.mp length.symm] at tiles
    exact List.length_eq_zero_iff.mp (Eq.symm tiles)
  · rintro rfl
    cases spans : (Script.ofLines []).spans z with
    | nil =>
        rw [spans] at length
        exact List.length_eq_zero_iff.mp length
    | cons span rest =>
        have bounds := tiles.mem_bounds span (by simp [spans])
        simp only [List.length_nil] at bounds
        omega
  · intro c first
    rw [List.head?_eq_getElem?] at first
    obtain ⟨span, found, start, _⟩ := at_k 0 c first
    have zero := tiles.head_eq span (by rw [List.head?_eq_getElem?, found])
    omega
  · intro c last
    rw [List.getLast?_eq_getElem?] at last
    obtain ⟨span, found, _, stop, _⟩ := at_k _ c last
    have final := tiles.last_eq span (by rw [List.getLast?_eq_getElem?, ← length, found])
    omega
  · intro k c next here after
    obtain ⟨span, found, _, stop, _⟩ := at_k k c here
    obtain ⟨span', found', start', _⟩ := at_k (k + 1) next after
    have adjacent := tiles.next_eq k span span' found found'
    omega
  · intro c member
    obtain ⟨k, here⟩ := List.mem_iff_getElem?.mp member
    obtain ⟨span, found, start, stop, content, complexity⟩ := at_k k c here
    obtain ⟨_, nonempty, below⟩ := tiles.mem_bounds span (List.mem_of_getElem? found)
    have source : c.sourceLines lines = (lines.drop span.1).take (span.2 - span.1) := by
      rw [Chunk.sourceLines, start, stop]
      congr <;> omega
    refine ⟨by omega, by omega, by omega, ?_, ?_⟩
    · have raws := Script.readFrom_raw 0 lines
      rw [content, source, Script.ofLines_slice_map lines _ _ Line.raw (fun raw => raw)
        (by rw [raws, List.map_id']), List.map_id']
    · rw [complexity, source, Script.weight_eq_sum, Script.ofLines_slice_map lines _ _ Line.weight
        (fun raw => (Line.classify raw 0).weight) (Script.readFrom_weight 0 lines)]

end ScriptAtlas
