import Mathlib.Data.List.Sort
import ScriptAtlas.Proofs.ListColumns
import ScriptAtlas.Proofs.SoundTables

/-!
The two ways of reading chunks. A single chunk comes with the dependencies that are asked for by its key; the
chunks of a script come with those of one join, which are handed out by key afterwards. As long as no key
stands twice in the table of chunks, both ways give each chunk the same dependencies in the same order.
-/

namespace ScriptAtlas

/-! ### Handing out dependencies -/

namespace StoredChunk

theorem foldl_rely (dependencies : List DependencyRow) (c : StoredChunk) :
    dependencies.foldl rely c =
      c.relying ((dependencies.filter fun d => d.chunk == c.row).map DependencyRow.on) := by
  induction dependencies generalizing c with
  | nil => simp [relying]
  | cons d rest ih =>
      rw [List.foldl_cons, ih, rely]
      by_cases own : c.row = d.chunk
      · simp [own, relying]
      · simp [own, Ne.symm own]

theorem foldl_map_rely (dependencies : List DependencyRow) (chunks : List StoredChunk) :
    dependencies.foldl (fun chunks d => chunks.map (·.rely d)) chunks =
      chunks.map fun c => dependencies.foldl rely c := by
  induction dependencies generalizing chunks with
  | nil => exact (List.map_id chunks).symm
  | cons d rest ih =>
      rw [List.foldl_cons, ih, List.map_map]
      rfl

end StoredChunk

theorem mapM_congr {α β ε : Type} {f g : α → Except ε β} {items : List α}
    (same : ∀ a ∈ items, f a = g a) : items.mapM f = items.mapM g := by
  induction items with
  | nil => rfl
  | cons a rest ih =>
      rw [List.forall_mem_cons] at same
      rw [List.mapM_cons, List.mapM_cons, same.1, ih same.2]

theorem mapM_ok {α β ε : Type} {f : α → Except ε β} {g : α → β} {items : List α}
    (each : ∀ a ∈ items, f a = .ok (g a)) : items.mapM f = .ok (items.map g) :=
  (mapM_congr each).trans List.mapM_pure

theorem mapM_map {α β γ ε : Type} (f : α → Except ε β) (g : β → γ) (items : List α) :
    (items.mapM f).map (List.map g) = items.mapM fun a => (f a).map g := by
  induction items with
  | nil => rfl
  | cons a rest ih =>
      rw [List.mapM_cons, List.mapM_cons, ← ih]
      cases f a with
      | error e => rfl
      | ok b => cases rest.mapM f <;> rfl

namespace Tables

theorem scanRow_eq_ok {r : ChunkRow} {x : StoredChunk} (scanned : scanRow r = .ok x) :
    x.row = r.id ∧ x.script = r.script := by
  rw [scanRow] at scanned
  split at scanned
  · cases scanned
    exact ⟨rfl, rfl⟩
  · cases scanned

/-- The chunk of a row, with the dependencies that stand for its key. -/
def readChunk (t : Tables) (r : ChunkRow) : Except StoreError StoredChunk :=
  (scanRow r).map fun c => c.relying (t.dependenciesOf r.id)

theorem getChunk_eq_of_find {t : Tables} {row : Int} {r : ChunkRow}
    (found : t.chunks.find? (fun c => c.id == row) = some r) : t.getChunk row = t.readChunk r := by
  have key : r.id = row := by simpa using List.find?_some found
  rw [getChunk, found, readChunk, key]

/-! ### The join -/

section Join

variable {t : Tables} (distinct : (t.chunks.map ChunkRow.id).Nodup)
include distinct

/-- Of the joined rows those of one chunk are its dependencies as they stand in the table. -/
theorem joined_filter {r : ChunkRow} (member : r ∈ t.chunks) :
    (t.dependencies.flatMap fun d =>
      (t.chunks.filter fun c => c.id == d.chunk && c.script == r.script).map fun _ => d).filter
        (fun d => d.chunk == r.id) = t.dependencies.filter fun d => d.chunk == r.id := by
  have single : (t.chunks.filter fun c => c.id == r.id && c.script == r.script) = [r] := by
    rw [← List.perm_singleton]
    refine (List.perm_ext_iff_of_nodup ((List.Nodup.of_map _ distinct).filter _)
      (List.nodup_singleton r)).mpr fun other => ?_
    rw [List.mem_filter, List.mem_singleton, Bool.and_eq_true, beq_iff_eq, beq_iff_eq]
    constructor
    · rintro ⟨known, same, -⟩
      exact List.inj_on_of_nodup_map distinct known member same
    · rintro rfl
      exact ⟨member, rfl, rfl⟩
  rw [List.filter_flatMap]
  induction t.dependencies with
  | nil => rfl
  | cons d rest ih =>
      rw [List.flatMap_cons, ih, List.filter_cons]
      by_cases own : d.chunk = r.id
      · simp [own, single]
      · simp [own]

theorem dependenciesIn_own {r : ChunkRow} (member : r ∈ t.chunks) :
    ((t.dependenciesIn r.script).filter fun d => d.chunk == r.id).map DependencyRow.on =
      t.dependenciesOf r.id := by
  have ordered : (t.dependenciesIn r.script).Pairwise fun a b => a.before b = true :=
    List.pairwise_mergeSort (by simp [DependencyRow.before]; omega) (by simp [DependencyRow.before]; omega) _
  have ascends : (((t.dependenciesIn r.script).filter fun d => d.chunk == r.id).map DependencyRow.on).Pairwise
      (· ≤ ·) := by
    rw [List.pairwise_map]
    refine (ordered.filter _).imp_of_mem fun {a b} first second before => ?_
    have here : a.chunk = b.chunk := by
      rw [eq_of_beq (List.mem_filter.mp first).2, eq_of_beq (List.mem_filter.mp second).2]
    simpa [DependencyRow.before, here] using before
  have sorted : (t.dependenciesOf r.id).Pairwise (· ≤ ·) := List.pairwise_mergeSort' (· ≤ ·) _
  have same : (((t.dependenciesIn r.script).filter fun d => d.chunk == r.id).map DependencyRow.on).Perm
      (t.dependenciesOf r.id) := by
    refine .trans ?_ (List.mergeSort_perm _ _).symm
    rw [← joined_filter distinct member]
    exact ((List.mergeSort_perm _ _).filter _).map _
  exact same.eq_of_pairwise (fun a b _ _ => Int.le_antisymm) ascends sorted

/-- The chunks of a script are those of its rows by number, each read on its own. -/
theorem listChunks_eq_mapM (script : Int) :
    t.listChunks script = ((t.chunks.filter fun c => c.script == script).mergeSort
      fun a b => decide (a.number ≤ b.number)).mapM t.readChunk := by
  have handed : ∀ r ∈ (t.chunks.filter fun c => c.script == script).mergeSort
      (fun a b => decide (a.number ≤ b.number)),
      (scanRow r).map (fun x => (t.dependenciesIn script).foldl StoredChunk.rely x) = t.readChunk r := by
    intro r listed
    obtain ⟨member, here⟩ := List.mem_filter.mp (List.mem_mergeSort.mp listed)
    have own : r.script = script := eq_of_beq here
    rw [readChunk]
    cases scanned : scanRow r with
    | error e => rfl
    | ok x =>
        rw [Except.map, Except.map, StoredChunk.foldl_rely, (scanRow_eq_ok scanned).1, ← own,
          dependenciesIn_own distinct member]
  rw [← mapM_congr handed, ← mapM_map, listChunks]
  simp only [StoredChunk.foldl_map_rely]
  rfl

end Join

theorem listChunks_congr {t t' : Tables} (distinct : (t.chunks.map ChunkRow.id).Nodup)
    (distinct' : (t'.chunks.map ChunkRow.id).Nodup) {script : Int}
    (rows : t'.chunks.filter (fun c => c.script == script) = t.chunks.filter fun c => c.script == script)
    (dependencies : ∀ r ∈ t.chunks, r.script = script → t'.dependenciesOf r.id = t.dependenciesOf r.id) :
    t'.listChunks script = t.listChunks script := by
  rw [listChunks_eq_mapM distinct, listChunks_eq_mapM distinct', rows]
  refine mapM_congr fun r listed => ?_
  obtain ⟨member, here⟩ := List.mem_filter.mp (List.mem_mergeSort.mp listed)
  rw [readChunk, readChunk, dependencies r member (eq_of_beq here)]

end Tables

end ScriptAtlas
