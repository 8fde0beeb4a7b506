import ScriptAtlas.Proofs.ChunkReading

/-!
Replacing the chunks of a script. The chunks are added exactly when their numbers and the dependencies
of each of them are distinct and the script is there; then they read back as they were, and no other
script is touched. A replacement that fails changes nothing.
-/

namespace ScriptAtlas

/-! ### Chunks with their keys -/

/-- Chunks with the keys after `last`, in order. -/
def Chunk.keyed (last : Int) : List Chunk → List (Int × Chunk)
  | [] => []
  | c :: rest => (last + 1, c) :: keyed (last + 1) rest

namespace Chunk

theorem keyed_chunks (last : Int) (chunks : List Chunk) : (keyed last chunks).map Prod.snd = chunks := by
  induction chunks generalizing last with
  | nil => rfl
  | cons c rest ih => rw [keyed, List.map_cons, ih]

theorem keyed_length (last : Int) (chunks : List Chunk) :
    ((keyed last chunks).map Prod.fst).length = chunks.length := by
  rw [List.length_map, ← congrArg List.length (keyed_chunks last chunks), List.length_map]

theorem keyed_zip (last : Int) (chunks : List Chunk) :
    ((keyed last chunks).map Prod.fst).zip chunks = keyed last chunks := by
  induction chunks generalizing last with
  | nil => rfl
  | cons c rest ih => rw [keyed, List.map_cons, List.zip_cons_cons, ih]

theorem keyed_bounds (last : Int) (chunks : List Chunk) :
    ∀ p ∈ keyed last chunks, last < p.1 := by
  induction chunks generalizing last with
  | nil => simp [keyed]
  | cons c rest ih =>
      rw [keyed, List.forall_mem_cons]
      refine ⟨by simp only; omega, fun p member => ?_⟩
      have beyond := ih (last + 1) p member
      omega

theorem keyed_distinct (last : Int) (chunks : List Chunk) : ((keyed last chunks).map Prod.fst).Nodup := by
  induction chunks generalizing last with
  | nil => exact List.nodup_nil
  | cons c rest ih =>
      rw [keyed, List.map_cons, List.nodup_cons]
      refine ⟨fun known => ?_, ih (last + 1)⟩
      obtain ⟨p, member, same⟩ := List.mem_map.mp known
      have beyond := keyed_bounds (last + 1) rest p member
      omega

end Chunk

namespace Tables

def withChunks (t : Tables) (script : Int) (chunks : List Chunk) : Tables :=
  { t with
    chunks := t.chunks ++ (Chunk.keyed t.lastChunk chunks).map fun p => ChunkRow.ofChunk p.1 script p.2
    dependencies := t.dependencies ++
      (Chunk.keyed t.lastChunk chunks).flatMap fun p => p.2.dependencies.map (DependencyRow.mk p.1)
    lastChunk := t.lastChunk + chunks.length }

/-! ### When chunks are added -/

theorem insertDependencies_eq_ok_iff (row number : Int) (ons : List Int) (t t' : Tables) :
    insertDependencies row number ons t = (.ok (), t') ↔
      (ons.Nodup ∧ ∀ on ∈ ons, DependencyRow.mk row on ∉ t.dependencies) ∧
        t' = { t with dependencies := t.dependencies ++ ons.map (DependencyRow.mk row) } := by
  induction ons generalizing t with
  | nil => simp [insertDependencies, eq_comm]
  | cons on rest ih =>
      rw [insertDependencies]
      split
      · rename_i known
        rw [List.elem_eq_mem, decide_eq_true_eq] at known
        simp [known]
      · rename_i new
        rw [List.elem_eq_mem, decide_eq_true_eq] at new
        rw [ih]
        simp only [List.nodup_cons, List.forall_mem_cons, List.mem_append, List.mem_singleton,
          DependencyRow.mk.injEq, true_and, not_or, List.map_cons, List.append_assoc,
          List.singleton_append]
        constructor
        · rintro ⟨⟨distinct, fresh⟩, same⟩
          exact ⟨⟨⟨fun again => (fresh on again).2 rfl, distinct⟩, new, fun o m => (fresh o m).1⟩, same⟩
        · rintro ⟨⟨⟨once, distinct⟩, -, fresh⟩, same⟩
          exact ⟨⟨distinct, fun o m => ⟨fresh o m, fun again => once (again ▸ m)⟩⟩, same⟩

/-- What chunks of a script must meet to be added. -/
structure Accepts (t : Tables) (script : Int) (chunks : List Chunk) : Prop where
  present : chunks = [] ∨ ∃ r ∈ t.scripts, r.id = script
  numbers : (chunks.map Chunk.id).Nodup
  dependencies : ∀ c ∈ chunks, c.dependencies.Nodup
  free : ∀ c ∈ chunks, ∀ r ∈ t.chunks, r.place ≠ (script, c.id)

theorem accepts_cons (t : Tables) (script : Int) (c : Chunk) (rest : List Chunk) :
    t.Accepts script (c :: rest) ↔ (∃ r ∈ t.scripts, r.id = script) ∧
      (∀ r ∈ t.chunks, r.place ≠ (script, c.id)) ∧ c.dependencies.Nodup ∧
        (t.withChunks script [c]).Accepts script rest := by
  constructor
  · intro accepts
    have numbers := accepts.numbers
    rw [List.map_cons, List.nodup_cons] at numbers
    refine ⟨accepts.present.resolve_left (List.cons_ne_nil c rest), accepts.free c List.mem_cons_self,
      accepts.dependencies c List.mem_cons_self, ?_, numbers.2, ?_, ?_⟩
    · exact .inr (accepts.present.resolve_left (List.cons_ne_nil c rest))
    · exact fun d member => accepts.dependencies d (List.mem_cons_of_mem c member)
    · intro d member r inside
      rcases List.mem_append.mp inside with old | new
      · exact accepts.free d (List.mem_cons_of_mem c member) r old
      · rw [Chunk.keyed, Chunk.keyed, List.map_singleton, List.mem_singleton] at new
        rw [new]
        intro same
        exact numbers.1 (List.mem_map.mpr ⟨d, member, (congrArg Prod.snd same).symm⟩)
  · rintro ⟨present, free, distinct, later⟩
    have added : ChunkRow.ofChunk (t.lastChunk + 1) script c ∈ (t.withChunks script [c]).chunks :=
      List.mem_append_right _ (List.mem_singleton_self _)
    refine ⟨.inr present, ?_, ?_, ?_⟩
    · rw [List.map_cons, List.nodup_cons]
      refine ⟨fun again => ?_, later.numbers⟩
      obtain ⟨d, member, same⟩ := List.mem_map.mp again
      exact later.free d member _ added (Prod.ext rfl same.symm)
    · exact List.forall_mem_cons.mpr ⟨distinct, later.dependencies⟩
    · refine List.forall_mem_cons.mpr ⟨free, fun d member r inside => ?_⟩
      exact later.free d member r (List.mem_append_left _ inside)

theorem withChunks_cons (t : Tables) (script : Int) (c : Chunk) (rest : List Chunk) :
    (t.withChunks script [c]).withChunks script rest = t.withChunks script (c :: rest) := by
  simp only [withChunks, Chunk.keyed, List.length_cons, List.length_nil, List.map_cons, List.map_nil,
    List.flatMap_cons, List.flatMap_nil, List.append_nil, List.append_assoc, List.singleton_append]
  congr 1
  omega

theorem withChunks_nil (t : Tables) (script : Int) : t.withChunks script [] = t := by
  simp [withChunks, Chunk.keyed]

theorem Sound.insertDependencies_new {t : Tables} (sound : t.Sound) (script : Int) (c : Chunk) (t' : Tables) :
    Tables.insertDependencies (t.lastChunk + 1) c.id c.dependencies { t with
        chunks := t.chunks ++ [ChunkRow.ofChunk (t.lastChunk + 1) script c]
        lastChunk := t.lastChunk + 1 } = (.ok (), t') ↔
      c.dependencies.Nodup ∧ t' = t.withChunks script [c] := by
  have new : ∀ on, DependencyRow.mk (t.lastChunk + 1) on ∉ t.dependencies := by
    intro on member
    obtain ⟨r, inside, same⟩ := sound.relied _ member
    have bound := sound.chunks.bounded r inside
    simp only at same
    omega
  rw [insertDependencies_eq_ok_iff]
  simp [new, withChunks, Chunk.keyed]

theorem Sound.withChunk {t : Tables} (sound : t.Sound) (script : Int) (c : Chunk)
    (present : ∃ r ∈ t.scripts, r.id = script) (free : ∀ r ∈ t.chunks, r.place ≠ (script, c.id))
    (distinct : c.dependencies.Nodup) : (t.withChunks script [c]).Sound := by
  have first := sound.insertChunk script c
  rcases insertChunk_cases t script c with ⟨missing | ⟨r, inside, taken⟩, -⟩ | ⟨-, -, added⟩
  · obtain ⟨r, inside, same⟩ := present
    exact absurd same (missing r inside)
  · exact absurd taken (free r inside)
  · rw [added] at first
    have second := first.insertDependencies (t.lastChunk + 1) c.id c.dependencies
      ⟨_, List.mem_append_right _ (List.mem_singleton_self _), rfl⟩
    rwa [(sound.insertDependencies_new script c _).mpr ⟨distinct, rfl⟩] at second

theorem Sound.insertChunks_eq_ok_iff {t : Tables} (sound : t.Sound) (script : Int) (chunks : List Chunk)
    (ids : List Int) (t' : Tables) :
    Tables.insertChunks script chunks t = (.ok ids, t') ↔ t.Accepts script chunks ∧
      ids = (Chunk.keyed t.lastChunk chunks).map Prod.fst ∧ t' = t.withChunks script chunks := by
  induction chunks generalizing t ids t' with
  | nil =>
      have accepts : t.Accepts script [] := ⟨.inl rfl, List.nodup_nil, by simp, by simp⟩
      simp [Tables.insertChunks, accepts, withChunks_nil, Chunk.keyed, eq_comm]
  | cons c rest ih =>
      rw [accepts_cons, Tables.insertChunks]
      rcases insertChunk_cases t script c with ⟨refused, same⟩ | ⟨present, free, same⟩
      · -- the chunk itself is refused
        rw [same]
        refine iff_of_false (by simp) ?_
        rintro ⟨⟨⟨r, inside, here⟩, free, -⟩, -⟩
        rcases refused with missing | ⟨other, known, taken⟩
        · exact missing r inside here
        · exact free other known taken
      · rw [same]
        dsimp only
        by_cases distinct : c.dependencies.Nodup
        · have added := (sound.insertDependencies_new script c _).mpr ⟨distinct, rfl⟩
          have later := ih (sound.withChunk script c present free distinct)
          rw [withChunks_cons] at later
          rw [added]
          dsimp only
          split
          · rename_i e t₂ failed
            refine iff_of_false (by simp) fun accepted => ?_
            rw [(later _ _).mpr ⟨accepted.1.2.2.2, rfl, rfl⟩] at failed
            cases failed
          · rename_i ids₂ t₂ done
            obtain ⟨accepts, rfl, rfl⟩ := (later ids₂ t₂).mp done
            constructor
            · rintro ⟨⟩
              exact ⟨⟨present, free, distinct, accepts⟩, rfl, rfl⟩
            · rintro ⟨-, rfl, rfl⟩
              rfl
        · -- one of its dependencies is refused
          refine iff_of_false ?_ fun accepted => distinct accepted.1.2.2.1
          split
          · simp
          · rename_i added
            exact absurd ((sound.insertDependencies_new script c _).mp added).1 distinct

/-- The chunks of a script can be replaced exactly when the script is there or nothing is to be added, and
the numbers and the dependencies of each chunk are distinct. -/
theorem Sound.swapChunks_eq_ok_iff {t : Tables} (sound : t.Sound) (script : Int) (chunks : List Chunk)
    (ids : List Int) (t' : Tables) :
    t.swapChunks script chunks = (.ok ids, t') ↔
      ((chunks.map Chunk.id).Nodup ∧ (∀ c ∈ chunks, c.dependencies.Nodup) ∧
        ((∃ r ∈ t.scripts, r.id = script) ∨ chunks = [])) ∧
      ids = (Chunk.keyed t.lastChunk chunks).map Prod.fst ∧
        t' = (t.removeChunks fun c => c.script == script).withChunks script chunks := by
  have none : ∀ r ∈ (t.removeChunks fun c => c.script == script).chunks, r.script ≠ script := by
    intro r inside
    simpa using (List.mem_filter.mp inside).2
  have accepts : (t.removeChunks fun c => c.script == script).Accepts script chunks ↔
      (chunks.map Chunk.id).Nodup ∧ (∀ c ∈ chunks, c.dependencies.Nodup) ∧
        ((∃ r ∈ t.scripts, r.id = script) ∨ chunks = []) := by
    constructor
    · exact fun accepts => ⟨accepts.numbers, accepts.dependencies, accepts.present.symm⟩
    · rintro ⟨numbers, dependencies, present⟩
      exact ⟨present.symm, numbers, dependencies,
        fun c _ r inside same => none r inside (congrArg Prod.fst same)⟩
  rw [Tables.swapChunks, (sound.removeChunks _).insertChunks_eq_ok_iff, accepts]
  rfl

theorem replaceChunks_error (t : Tables) (script : Int) (chunks : List Chunk) (e : StoreError)
    (failed : (t.replaceChunks script chunks).1 = .error e) : (t.replaceChunks script chunks).2 = t := by
  rw [replaceChunks] at failed ⊢
  split at failed
  · cases failed
  · rfl

/-! ### Reading back -/

theorem filter_dependencies {pairs : List (Int × Chunk)} (distinct : (pairs.map Prod.fst).Nodup)
    (p : Int × Chunk) (member : p ∈ pairs) :
    (pairs.flatMap fun q => q.2.dependencies.map (DependencyRow.mk q.1)).filter (fun d => d.chunk == p.1) =
      p.2.dependencies.map (DependencyRow.mk p.1) := by
  have here : ∀ q : Int × Chunk, q.1 = p.1 → (q.2.dependencies.map (DependencyRow.mk q.1)).filter
      (fun d => d.chunk == p.1) = q.2.dependencies.map (DependencyRow.mk q.1) := by
    intro q same
    simp [List.filter_eq_self, same]
  have elsewhere : ∀ q : Int × Chunk, q.1 ≠ p.1 → (q.2.dependencies.map (DependencyRow.mk q.1)).filter
      (fun d => d.chunk == p.1) = [] := by
    intro q other
    simp [List.filter_eq_nil_iff, other]
  induction pairs with
  | nil => cases member
  | cons q rest ih =>
      rw [List.map_cons, List.nodup_cons] at distinct
      rw [List.flatMap_cons, List.filter_append]
      rcases List.mem_cons.mp member with rfl | later
      · have others : (rest.flatMap fun q => q.2.dependencies.map (DependencyRow.mk q.1)).filter
            (fun d => d.chunk == p.1) = [] := by
          rw [List.filter_flatMap, List.flatMap_eq_nil_iff]
          exact fun q inside => elsewhere q fun same =>
            distinct.1 (List.mem_map.mpr ⟨q, inside, same⟩)
        rw [here p rfl, others, List.append_nil]
      · have other : q.1 ≠ p.1 := fun same =>
          distinct.1 (List.mem_map.mpr ⟨p, later, same.symm⟩)
        rw [elsewhere q other, ih distinct.2 later, List.nil_append]

variable {t : Tables}

theorem Sound.lt_of_dependency (sound : t.Sound) (d : DependencyRow) (member : d ∈ t.dependencies) :
    d.chunk ≤ t.lastChunk := by
  obtain ⟨r, inside, same⟩ := sound.relied d member
  rw [← same]
  exact sound.chunks.bounded r inside

theorem dependenciesOf_withChunks_old (script : Int) (chunks : List Chunk) (row : Int)
    (old : row ≤ t.lastChunk) : (t.withChunks script chunks).dependenciesOf row = t.dependenciesOf row := by
  have others : ((Chunk.keyed t.lastChunk chunks).flatMap fun p =>
      p.2.dependencies.map (DependencyRow.mk p.1)).filter (fun d => d.chunk == row) = [] := by
    rw [List.filter_flatMap, List.flatMap_eq_nil_iff]
    intro p inside
    have beyond := Chunk.keyed_bounds t.lastChunk chunks p inside
    simp [List.filter_eq_nil_iff, show p.1 ≠ row by omega]
  rw [dependenciesOf, dependenciesOf, withChunks, List.filter_append, others, List.append_nil]

theorem Sound.dependenciesOf_withChunks_new (sound : t.Sound) (script : Int) (chunks : List Chunk)
    (p : Int × Chunk) (member : p ∈ Chunk.keyed t.lastChunk chunks) :
    (t.withChunks script chunks).dependenciesOf p.1 =
      p.2.dependencies.mergeSort fun a b => decide (a ≤ b) := by
  have beyond := Chunk.keyed_bounds t.lastChunk chunks p member
  have before : t.dependencies.filter (fun d => d.chunk == p.1) = [] := by
    rw [List.filter_eq_nil_iff]
    intro d inside
    have bound := sound.lt_of_dependency d inside
    simp only [beq_iff_eq]
    omega
  rw [dependenciesOf, withChunks, List.filter_append, before, List.nil_append,
    filter_dependencies (Chunk.keyed_distinct t.lastChunk chunks) p member, List.map_map]
  exact congrArg (List.mergeSort · _) (List.map_id _)

theorem Sound.withChunks_keys (sound : t.Sound) (script : Int) (chunks : List Chunk) :
    ((t.withChunks script chunks).chunks.map ChunkRow.id).Nodup := by
  rw [withChunks, List.map_append, List.map_map, List.nodup_append]
  refine ⟨sound.chunks.distinct, Chunk.keyed_distinct t.lastChunk chunks, ?_⟩
  intro old before new after same
  obtain ⟨r, inside, rfl⟩ := List.mem_map.mp before
  obtain ⟨p, added, rfl⟩ := List.mem_map.mp after
  have low := sound.chunks.bounded r inside
  have high := Chunk.keyed_bounds t.lastChunk chunks p added
  have key : (ChunkRow.id ∘ fun p => ChunkRow.ofChunk p.1 script p.2) p = p.1 := rfl
  omega

theorem Sound.dependenciesOf_removeChunks (sound : t.Sound) (drop : ChunkRow → Bool) (r : ChunkRow)
    (inside : r ∈ t.chunks) (kept : drop r = false) :
    (t.removeChunks drop).dependenciesOf r.id = t.dependenciesOf r.id := by
  have stays : ∀ d ∈ t.dependencies, d.chunk = r.id →
      d.chunk ∉ (t.chunks.filter drop).map ChunkRow.id := by
    intro d _ same gone
    obtain ⟨c, dropped, key⟩ := List.mem_map.mp gone
    obtain ⟨known, drops⟩ := List.mem_filter.mp dropped
    rw [sound.chunks.eq_of_key known inside (key.trans same), kept] at drops
    cases drops
  have rows : (t.removeChunks drop).dependencies.filter (fun d => d.chunk == r.id) =
      t.dependencies.filter fun d => d.chunk == r.id := by
    rw [Tables.removeChunks, List.filter_filter]
    refine List.filter_congr fun d known => ?_
    cases same : d.chunk == r.id with
    | false => rfl
    | true => simpa using stays d known (by simpa using same)
  rw [dependenciesOf, dependenciesOf, rows]

theorem Sound.listChunks_removeChunks (sound : t.Sound) (drop : ChunkRow → Bool) (script : Int)
    (kept : ∀ c ∈ t.chunks, c.script = script → drop c = false) :
    (t.removeChunks drop).listChunks script = t.listChunks script := by
  refine listChunks_congr sound.chunks.distinct (sound.removeChunks drop).chunks.distinct ?_ fun r inside here =>
    sound.dependenciesOf_removeChunks drop r inside (kept r inside here)
  rw [Tables.removeChunks, List.filter_filter]
  refine List.filter_congr fun c inside => ?_
  cases here : c.script == script with
  | false => rfl
  | true => simp [kept c inside (by simpa using here)]

theorem Sound.listChunks_withChunks_other (sound : t.Sound) (script : Int) (chunks : List Chunk)
    (other : Int) (different : other ≠ script) :
    (t.withChunks script chunks).listChunks other = t.listChunks other := by
  refine listChunks_congr sound.chunks.distinct (sound.withChunks_keys script chunks) ?_ fun r inside _ =>
    dependenciesOf_withChunks_old script chunks r.id (sound.chunks.bounded r inside)
  have none : ((Chunk.keyed t.lastChunk chunks).map fun p => ChunkRow.ofChunk p.1 script p.2).filter
      (fun c => c.script == other) = [] := by
    rw [List.filter_eq_nil_iff]
    intro r member
    obtain ⟨p, -, rfl⟩ := List.mem_map.mp member
    simpa [ChunkRow.ofChunk] using different.symm
  rw [withChunks, List.filter_append, none, List.append_nil]

end Tables

/-- A chunk as it is read back: with its key and script, and its dependencies in order. -/
def Chunk.stored (script row : Int) (c : Chunk) : StoredChunk where
  row := row
  script := script
  chunk := { c with dependencies := c.dependencies.mergeSort fun a b => decide (a ≤ b) }

namespace Tables

variable {t : Tables}

theorem Sound.readChunk_new (sound : t.Sound) (script : Int) (chunks : List Chunk)
    (p : Int × Chunk) (member : p ∈ Chunk.keyed t.lastChunk chunks) (legible : p.2.Legible) :
    (t.withChunks script chunks).readChunk (ChunkRow.ofChunk p.1 script p.2) =
      .ok (p.2.stored script p.1) := by
  have on := sound.dependenciesOf_withChunks_new script chunks p member
  rw [readChunk, show (ChunkRow.ofChunk p.1 script p.2).id = p.1 from rfl, on, scanRow,
    ChunkRow.scan_ofChunk p.1 script p.2 legible]
  rfl

/-- New chunks of a script that had none are read back by number. -/
theorem Sound.listChunks_withChunks (sound : t.Sound) (script : Int) (chunks : List Chunk)
    (none : ∀ r ∈ t.chunks, r.script ≠ script) (legible : ∀ c ∈ chunks, c.Legible) :
    (t.withChunks script chunks).listChunks script =
      .ok (((Chunk.keyed t.lastChunk chunks).mergeSort fun p q => decide (p.2.id ≤ q.2.id)).map
        fun p => p.2.stored script p.1) := by
  have rows : (t.withChunks script chunks).chunks.filter (fun c => c.script == script) =
      (Chunk.keyed t.lastChunk chunks).map fun p => ChunkRow.ofChunk p.1 script p.2 := by
    rw [withChunks, List.filter_append, List.filter_eq_nil_iff.mpr (by simpa using none), List.nil_append,
      List.filter_eq_self]
    intro r member
    obtain ⟨p, -, rfl⟩ := List.mem_map.mp member
    simp [ChunkRow.ofChunk]
  rw [listChunks_eq_mapM (sound.withChunks_keys script chunks), rows,
    ← List.map_mergeSort (r := fun p q : Int × Chunk => decide (p.2.id ≤ q.2.id)), List.mapM_map]
  · refine mapM_ok fun p member => ?_
    have inside := List.mem_mergeSort.mp member
    refine sound.readChunk_new script chunks p inside (legible p.2 ?_)
    rw [← Chunk.keyed_chunks t.lastChunk chunks]
    exact List.mem_map_of_mem inside
  · intro p _ q _
    rfl

theorem Sound.getChunk_eq (sound : t.Sound) (r : ChunkRow) (member : r ∈ t.chunks) :
    t.getChunk r.id = t.readChunk r := by
  exact getChunk_eq_of_find ((find_key_iff sound.chunks.distinct r.id r).mpr ⟨member, rfl⟩)

theorem getChunk_eq_ok {row : Int} {x : StoredChunk} (read : t.getChunk row = .ok x) :
    ∃ r ∈ t.chunks, r.id = row ∧ r.script = x.script ∧ t.readChunk r = .ok x := by
  cases found : t.chunks.find? fun c => c.id == row with
  | none =>
      rw [getChunk, found] at read
      cases read
  | some r =>
      rw [getChunk_eq_of_find found] at read
      refine ⟨r, List.mem_of_find?_eq_some found, by simpa using List.find?_some found, ?_, read⟩
      rw [readChunk] at read
      cases scanned : scanRow r with
      | error e =>
          rw [scanned] at read
          cases read
      | ok c =>
          rw [scanned] at read
          cases read
          exact (scanRow_eq_ok scanned).2.symm

/-- What a successful replacement leaves behind. -/
structure Swapped (t : Tables) (script : Int) (chunks : List Chunk) (ids : List Int) (t' : Tables) : Prop where
  sound : t'.Sound
  projects : t'.projects = t.projects
  scripts : t'.scripts = t.scripts
  read : (∀ c ∈ chunks, c.Legible) → ∃ stored, t'.listChunks script = .ok stored ∧
    stored.Perm ((ids.zip chunks).map fun p => p.2.stored script p.1) ∧
    stored.Pairwise (fun a b => a.chunk.id < b.chunk.id) ∧ ∀ x ∈ stored, t'.getChunk x.row = .ok x
  others : ∀ other, other ≠ script → t'.listChunks other = t.listChunks other
  elsewhere : ∀ row x, t.getChunk row = .ok x → x.script ≠ script → t'.getChunk row = .ok x

theorem keyed_sorted (last : Int) (chunks : List Chunk) (numbers : (chunks.map Chunk.id).Nodup) :
    ((Chunk.keyed last chunks).mergeSort fun p q => decide (p.2.id ≤ q.2.id)).Pairwise
      fun p q => p.2.id < q.2.id := by
  have ordered : ((Chunk.keyed last chunks).mergeSort fun p q => decide (p.2.id ≤ q.2.id)).Pairwise
      fun p q => decide (p.2.id ≤ q.2.id) = true :=
    List.pairwise_mergeSort (by simp; omega) (by simp; omega) _
  have distinct : (((Chunk.keyed last chunks).mergeSort fun p q => decide (p.2.id ≤ q.2.id)).map
      fun p => p.2.id).Nodup := by
    rw [((List.mergeSort_perm _ _).map _).nodup_iff]
    rw [← Chunk.keyed_chunks last chunks, List.map_map] at numbers
    exact numbers
  refine (ordered.and (List.pairwise_map.mp distinct)).imp fun both => ?_
  rw [decide_eq_true_eq] at both
  omega

theorem Sound.swapped {t : Tables} (sound : t.Sound) (script : Int) (chunks : List Chunk)
    (ids : List Int) (t' : Tables) (done : t.swapChunks script chunks = (.ok ids, t')) :
    t.Swapped script chunks ids t' := by
  have kept := sound.swapChunks script chunks
  rw [done] at kept
  have rest := sound.removeChunks fun c => c.script == script
  obtain ⟨⟨numbers, -, -⟩, rfl, rfl⟩ := (sound.swapChunks_eq_ok_iff script chunks ids t').mp done
  have last : (t.removeChunks fun c => c.script == script).lastChunk = t.lastChunk := rfl
  refine ⟨kept, rfl, rfl, ?_, ?_, ?_⟩
  · -- the chunks of the script
    intro legible
    refine ⟨_, rest.listChunks_withChunks script chunks ?_ legible, ?_, ?_, ?_⟩
    · intro r inside
      simpa using (List.mem_filter.mp inside).2
    · rw [last, Chunk.keyed_zip]
      exact (List.mergeSort_perm _ _).map _
    · exact List.pairwise_map.mpr (keyed_sorted _ chunks numbers)
    · intro x member
      obtain ⟨p, inside, rfl⟩ := List.mem_map.mp member
      have new := List.mem_mergeSort.mp inside
      have row : ChunkRow.ofChunk p.1 script p.2 ∈
          ((t.removeChunks fun c => c.script == script).withChunks script chunks).chunks :=
        List.mem_append_right _ (List.mem_map_of_mem new)
      refine (kept.getChunk_eq _ row).trans (rest.readChunk_new script chunks p new (legible p.2 ?_))
      rw [← Chunk.keyed_chunks t.lastChunk chunks]
      exact List.mem_map_of_mem new
  · -- the lists of other scripts
    intro other different
    rw [rest.listChunks_withChunks_other script chunks other different]
    refine sound.listChunks_removeChunks _ other fun c _ here => ?_
    simpa [here] using different
  · -- single chunks of other scripts
    intro row x read elsewhere
    obtain ⟨r, inside, rfl, owner, shown⟩ := getChunk_eq_ok read
    have stays : (r.script == script) = false := by simpa [owner] using elsewhere
    have still : r ∈ (t.removeChunks fun c => c.script == script).chunks :=
      List.mem_filter.mpr ⟨inside, by simp [stays]⟩
    have on : ((t.removeChunks fun c => c.script == script).withChunks script chunks).dependenciesOf r.id =
        t.dependenciesOf r.id :=
      (dependenciesOf_withChunks_old script chunks r.id (rest.chunks.bounded r still)).trans
        (sound.dependenciesOf_removeChunks _ r inside stays)
    rw [kept.getChunk_eq r (List.mem_append_left _ still), ← shown, readChunk, readChunk, on]

end Tables

namespace Store

variable {s : Store}

theorem getScriptById_eq_ok_iff (sound : s.Sound) (id : Int) :
    (∃ row, s.getScriptById id = .ok row) ↔ ∃ r ∈ s.tables.scripts, r.id = id := by
  rw [getScriptById, read_eq sound.isOpen, Tables.getScriptById]
  cases found : s.tables.script? id with
  | none =>
      refine iff_of_false (by simp) ?_
      rintro ⟨r, member, same⟩
      simpa [same] using List.find?_eq_none.mp found r member
  | some r =>
      exact iff_of_true ⟨r, rfl⟩ ⟨r, List.mem_of_find?_eq_some found, by simpa using List.find?_some found⟩

/-- With or without a transaction, chunks are replaced when they can be swapped. -/
theorem replaceChunks_eq_ok_iff (sound : s.Sound) (script : Int) (chunks : List Chunk) (ids : List Int)
    (s' : Store) :
    s.replaceChunks script chunks = (.ok ids, s') ↔
      ∃ t', s.tables.swapChunks script chunks = (.ok ids, t') ∧ s' = { s with tables := t' } := by
  rw [replaceChunks, change_eq sound.isOpen]
  cases swap : s.tables.swapChunks script chunks with
  | mk result t' =>
      cases result <;> split <;> simp [Tables.replaceChunks, swap, eq_comm]

theorem replaceChunks_error (sound : s.Sound) (script : Int) (chunks : List Chunk) (e : StoreError)
    (s' : Store) (failed : s.replaceChunks script chunks = (.error e, s')) :
    (s.begun = none → s' = s) ∧ s'.rollBack = s.rollBack := by
  rw [replaceChunks, change_eq sound.isOpen, Prod.mk.injEq] at failed
  by_cases free : s.begun.isSome = true
  · obtain ⟨t, busy⟩ := Option.isSome_iff_exists.mp free
    refine ⟨fun idle => by simp [idle] at busy, ?_⟩
    rw [← failed.2, rollBack, rollBack, busy]
  · rw [if_neg free] at failed
    have same : s' = s := by
      rw [← failed.2, Tables.replaceChunks_error s.tables script chunks e failed.1]
    rw [same]
    exact ⟨fun _ => rfl, rfl⟩

/-- Replacing the chunks of a script succeeds exactly when the numbers and the dependencies of each chunk
are distinct and the script is there or no chunk is given. Then both ways of reading give the chunks back,
with the keys that were returned, and the chunks of other scripts stay. Otherwise nothing changes; inside
a transaction, nothing that rolling it back would not restore. -/
theorem replaceChunks_swaps (reachable : s.Reachable) (script : Int) (chunks : List Chunk)
    (legible : ∀ c ∈ chunks, c.Legible) :
    ((∃ ids, (s.replaceChunks script chunks).1 = .ok ids) ↔
      (chunks.map Chunk.id).Nodup ∧ (∀ c ∈ chunks, c.dependencies.Nodup) ∧
        ((∃ row, s.getScriptById script = .ok row) ∨ chunks = [])) ∧
    (∀ ids s', s.replaceChunks script chunks = (.ok ids, s') →
      ids.length = chunks.length ∧
      (∃ stored, s'.listChunks script = .ok stored ∧
        stored.Perm ((ids.zip chunks).map fun p => p.2.stored script p.1) ∧
        stored.Pairwise (fun a b => a.chunk.id < b.chunk.id) ∧
        ∀ x ∈ stored, s'.getChunk x.row = .ok x) ∧
      (∀ other, other ≠ script → s'.listChunks other = s.listChunks other) ∧
      ∀ row x, s.getChunk row = .ok x → x.script ≠ script → s'.getChunk row = .ok x) ∧
    ∀ e s', s.replaceChunks script chunks = (.error e, s') →
      (s.begun = none → s' = s) ∧ s'.rollBack = s.rollBack := by
  have sound := reachable.sound
  refine ⟨?_, ?_, replaceChunks_error sound script chunks⟩
  · rw [getScriptById_eq_ok_iff sound]
    constructor
    · rintro ⟨ids, done⟩
      obtain ⟨t', swap, -⟩ := (replaceChunks_eq_ok_iff sound script chunks ids _).mp (Prod.ext done rfl)
      exact ((sound.tables.swapChunks_eq_ok_iff script chunks ids t').mp swap).1
    · intro accepted
      have swap := (sound.tables.swapChunks_eq_ok_iff script chunks _ _).mpr ⟨accepted, rfl, rfl⟩
      have done := (replaceChunks_eq_ok_iff sound script chunks _ _).mpr ⟨_, swap, rfl⟩
      exact ⟨_, congrArg Prod.fst done⟩
  · intro ids s' done
    obtain ⟨t', swap, rfl⟩ := (replaceChunks_eq_ok_iff sound script chunks ids s').mp done
    have swapped := sound.tables.swapped script chunks ids t' swap
    have open' : ({ s with tables := t' } : Store).isClosed = false := sound.isOpen
    obtain ⟨-, rfl, -⟩ := (sound.tables.swapChunks_eq_ok_iff script chunks ids t').mp swap
    simp only [listChunks, getChunk, read_eq open', read_eq sound.isOpen]
    exact ⟨Chunk.keyed_length _ chunks, swapped.read legible, swapped.others, swapped.elsewhere⟩

def oneScript : List StoreCall :=
  [.createProject "/p" "1.1.0", .upsertScript 1 "a.sql" ⟨.zero, 0, 0, "hybrid", ""⟩]

def twoChunks : List Chunk :=
  [{ id := 2, tables := ["b", "<a>"], dependencies := [3, 1],
      part := some { parentKind := .conditional, parentStart := 1, parentEnd := 9, ordinal := 2, total := 2 } },
    { id := 1, content := "SELECT 1", hash := .ofText "SELECT 2", tokens := -7 }]

theorem replaceChunks_swaps_two :
    let s := oneScript.foldl StoreCall.perform {}
    s.Reachable ∧ (∀ c ∈ twoChunks, c.Legible) ∧ ∃ ids s' stored,
      s.replaceChunks 1 twoChunks = (.ok ids, s') ∧ s'.listChunks 1 = .ok stored ∧
        stored.Perm ((ids.zip twoChunks).map fun p => p.2.stored 1 p.1) := by
  intro s
  have reachable : s.Reachable := ⟨oneScript, rfl⟩
  have legible : ∀ c ∈ twoChunks, c.Legible := by decide
  obtain ⟨succeeds, reads, -⟩ := replaceChunks_swaps reachable 1 twoChunks legible
  have present : ∃ row, s.getScriptById 1 = .ok row := ⟨_, rfl⟩
  obtain ⟨ids, done⟩ := succeeds.mpr ⟨by decide, by decide, .inl present⟩
  obtain ⟨-, ⟨stored, read, perm, -⟩, -⟩ := reads ids _ (Prod.ext done rfl)
  exact ⟨reachable, legible, ids, _, stored, Prod.ext done rfl, read, perm⟩

end Store

end ScriptAtlas
