import ScriptAtlas.Proofs.ChunkSwap
import ScriptAtlas.Proofs.TextOrder

/-!
The tables as a map from the places of scripts to their records. Storing or removing a script changes
the record at its place and no other one.
-/

namespace ScriptAtlas

namespace Tables

def record? (t : Tables) (project : Int) (path : Text) :
    Option (ScriptRow × Except StoreError (List StoredChunk)) :=
  (t.scriptAt? project path).map fun r => (r, t.listChunks r.id)

variable {t t' : Tables}

theorem record_eq_some_iff (t : Tables) (project : Int) (path : Text) (r : ScriptRow)
    (chunks : Except StoreError (List StoredChunk)) :
    t.record? project path = some (r, chunks) ↔
      t.scriptAt? project path = some r ∧ t.listChunks r.id = chunks := by
  rw [record?, Option.map_eq_some_iff]
  constructor
  · rintro ⟨r, here, ⟨⟩⟩
    exact ⟨here, rfl⟩
  · rintro ⟨here, rfl⟩
    exact ⟨r, here, rfl⟩

theorem listChunks_eq (chunks : t'.chunks = t.chunks) (dependencies : t'.dependencies = t.dependencies) :
    t'.listChunks = t.listChunks := by
  funext script
  rw [listChunks, listChunks, dependenciesIn, dependenciesIn, chunks, dependencies]

theorem record_eq (scripts : t'.scripts = t.scripts) (chunks : t'.chunks = t.chunks)
    (dependencies : t'.dependencies = t.dependencies) : t'.record? = t.record? := by
  funext project path
  rw [record?, record?, listChunks_eq chunks dependencies, scriptAt?, scriptAt?, scripts]

theorem projectAt_eq (projects : t'.projects = t.projects) : t'.projectAt? = t.projectAt? := by
  funext root
  rw [projectAt?, projectAt?, projects]

theorem projectChunks_eq (scripts : t'.scripts = t.scripts) (chunks : t'.chunks = t.chunks) :
    t'.projectChunks = t.projectChunks := by
  funext project
  simp only [projectChunks, script?, scripts, chunks]

theorem Sound.projectChunks_length (sound : t.Sound) (project : Int) :
    (t.projectChunks project).length =
      t.chunks.countP fun c => t.scripts.any fun r => r.id == c.script && r.project == project := by
  rw [projectChunks, ← List.countP_eq_length_filter]
  congr 1
  funext c
  rw [Bool.eq_iff_iff, List.any_eq_true, beq_iff_eq, Option.map_eq_some_iff]
  simp only [script?, find_key_iff sound.scripts.distinct, Bool.and_eq_true, beq_iff_eq, and_assoc]

theorem Sound.projectAt_iff (sound : t.Sound) (root : Text) (p : ProjectRow) :
    t.projectAt? root = some p ↔ p ∈ t.projects ∧ p.root = root :=
  find_key_iff sound.roots root p

theorem Sound.scriptAt_iff (sound : t.Sound) (project : Int) (path : Text) (r : ScriptRow) :
    t.scriptAt? project path = some r ↔ r ∈ t.scripts ∧ r.place = (project, path) := by
  constructor
  · exact scriptAt_eq_some t
  · rintro ⟨member, here⟩
    cases found : t.scriptAt? project path with
    | none => exact absurd here ((scriptAt_eq_none t project path).mp found r member)
    | some other =>
        obtain ⟨known, there⟩ := scriptAt_eq_some t found
        rw [List.inj_on_of_nodup_map sound.places known member (there.trans here.symm)]

theorem Sound.filter_place (sound : t.Sound) {project : Int} {path : Text} {r : ScriptRow}
    (here : t.scriptAt? project path = some r) :
    (t.scripts.filter fun r => r.project == project && r.path == path) = [r] := by
  rw [← List.perm_singleton]
  refine (List.perm_ext_iff_of_nodup ((List.Nodup.of_map _ sound.places).filter _)
    (List.nodup_singleton r)).mpr fun other => ?_
  have there := sound.scriptAt_iff project path other
  rw [here, Option.some.injEq, ScriptRow.place, Prod.mk.injEq] at there
  rw [List.mem_filter, List.mem_singleton, Bool.and_eq_true, beq_iff_eq, beq_iff_eq, ← there]
  exact eq_comm

theorem Sound.scriptAt_congr (sound : t.Sound) (sound' : t'.Sound) {project : Int} {path : Text}
    (same : ∀ r : ScriptRow, r.place = (project, path) → (r ∈ t'.scripts ↔ r ∈ t.scripts)) :
    t'.scriptAt? project path = t.scriptAt? project path := by
  apply Option.ext
  intro r
  rw [sound'.scriptAt_iff, sound.scriptAt_iff]
  exact and_congr_left fun here => same r here

theorem Sound.place_of_id (sound : t.Sound) {project q : Int} {path other : Text} {r r' : ScriptRow}
    (here : t.scriptAt? project path = some r) (there : t.scriptAt? q other = some r')
    (same : r'.id = r.id) : (q, other) = (project, path) := by
  obtain ⟨known, place⟩ := scriptAt_eq_some t here
  obtain ⟨known', place'⟩ := scriptAt_eq_some t there
  rw [← place, ← place', sound.scripts.eq_of_key known' known same]

theorem mem_listScripts (t : Tables) (project : Int) (r : ScriptRow) :
    r ∈ t.listScripts project ↔ r ∈ t.scripts ∧ r.project = project := by
  rw [listScripts, List.mem_mergeSort, List.mem_filter, beq_iff_eq]

theorem Sound.scriptAt_of_listed (sound : t.Sound) {project : Int} {r : ScriptRow}
    (listed : r ∈ t.listScripts project) : t.scriptAt? project r.path = some r := by
  obtain ⟨member, rfl⟩ := (t.mem_listScripts project r).mp listed
  exact (sound.scriptAt_iff _ _ r).mpr ⟨member, rfl⟩

theorem listScripts_pairwise (t : Tables) (project : Int) :
    (t.listScripts project).Pairwise fun a b => a.path ≤ b.path :=
  Text.pairwise_mergeSort ScriptRow.path _

theorem Sound.listScripts_congr (sound : t.Sound) (sound' : t'.Sound) {project : Int}
    (same : ∀ path, t'.scriptAt? project path = t.scriptAt? project path) :
    t'.listScripts project = t.listScripts project := by
  have members : ∀ r : ScriptRow, r ∈ t'.listScripts project ↔ r ∈ t.listScripts project := by
    intro r
    rw [mem_listScripts, mem_listScripts]
    refine and_congr_left fun here => ?_
    have found := Option.ext_iff.mp (same r.path) r
    rw [sound'.scriptAt_iff, sound.scriptAt_iff] at found
    simpa [ScriptRow.place, here] using found
  have nodup : (t.listScripts project).Nodup :=
    (List.mergeSort_perm _ _).nodup_iff.mpr ((List.Nodup.of_map _ sound.places).filter _)
  have nodup' : (t'.listScripts project).Nodup :=
    (List.mergeSort_perm _ _).nodup_iff.mpr ((List.Nodup.of_map _ sound'.places).filter _)
  have perm := (List.perm_ext_iff_of_nodup nodup' nodup).mpr members
  refine perm.eq_of_pairwise ?_ (t'.listScripts_pairwise project) (t.listScripts_pairwise project)
  intro a b first second below above
  rw [members, mem_listScripts] at first
  rw [mem_listScripts] at second
  refine List.inj_on_of_nodup_map sound.places first.1 second.1 ?_
  rw [ScriptRow.place, ScriptRow.place, first.2, second.2, List.le_antisymm below above]

/-! ### Storing -/

/-- A script that is put in place has its facts there; the other scripts stay, and so do all chunks. -/
theorem Sound.upsertScript_eq_ok (sound : t.Sound) {project : Int} {path : Text} {facts : ScriptFacts}
    {row : ScriptRow} (done : t.upsertScript project path facts = (.ok row, t')) :
    row.facts = facts ∧ t'.scriptAt? project path = some row ∧
      (∀ q other, (q, other) ≠ (project, path) → t'.scriptAt? q other = t.scriptAt? q other) ∧
      t'.projects = t.projects ∧ t'.chunks = t.chunks ∧ t'.dependencies = t.dependencies := by
  have kept := sound.upsertScript project path facts
  rw [done] at kept
  rcases upsertScript_cases t project path facts with ⟨old, found, same⟩ | ⟨-, -, same⟩ | ⟨new, -, same⟩
  · rw [same, Prod.mk.injEq, Except.ok.injEq] at done
    obtain ⟨rfl, rfl⟩ := done
    obtain ⟨member, here⟩ := scriptAt_eq_some t found
    have places := sound.update_place member facts
    refine ⟨rfl, (kept.scriptAt_iff project path _).mpr ⟨?_, here⟩, ?_, rfl, rfl, rfl⟩
    · exact List.mem_map.mpr ⟨old, member, by simp⟩
    · intro q other different
      -- the row at another place is not the one that changed
      refine sound.scriptAt_congr kept fun r there => ?_
      have apart : r ≠ old := fun equal => different (there.symm.trans (equal ▸ here))
      constructor
      · intro changed
        obtain ⟨before, inside, rfl⟩ := List.mem_map.mp changed
        split at there
        · exact absurd (there.symm.trans here) different
        · rename_i distinct
          rwa [if_neg distinct]
      · intro inside
        refine List.mem_map.mpr ⟨r, inside, if_neg fun equal => ?_⟩
        exact apart (sound.scripts.eq_of_key inside member (by simpa using equal))
  · rw [same] at done
    cases done
  · rw [same, Prod.mk.injEq, Except.ok.injEq] at done
    obtain ⟨rfl, rfl⟩ := done
    refine ⟨rfl, (kept.scriptAt_iff project path _).mpr ⟨?_, rfl⟩, ?_, rfl, rfl, rfl⟩
    · exact List.mem_append_right _ (List.mem_singleton_self _)
    · intro q other different
      refine sound.scriptAt_congr kept fun r there => ?_
      rw [List.mem_append, List.mem_singleton]
      refine or_iff_left ?_
      rintro rfl
      exact different there.symm

end Tables

/-- Chunks in the form in which they are read back: by number, each with its dependencies in order. -/
structure Chunk.Storable (chunks : List Chunk) : Prop where
  ascend : chunks.Pairwise fun a b => a.id < b.id
  dependencies : ∀ c ∈ chunks, c.dependencies.Pairwise (· < ·)
  legible : ∀ c ∈ chunks, c.Legible

theorem Chunk.stored_chunk {c : Chunk} (sorted : c.dependencies.Pairwise (· < ·)) (script row : Int) :
    (c.stored script row).chunk = c := by
  have same : c.dependencies.mergeSort (fun a b => decide (a ≤ b)) = c.dependencies :=
    List.mergeSort_of_pairwise (sorted.imp fun below => by simpa using Int.le_of_lt below)
  rw [stored, same]

namespace Tables

variable {t t' : Tables}

def Stores (t : Tables) (project : Int) (path : Text) (facts : ScriptFacts) (chunks : List Chunk) : Prop :=
  ∃ row stored, t.record? project path = some (row, .ok stored) ∧ row.facts = facts ∧
    stored.map StoredChunk.chunk = chunks

theorem Swapped.chunks {script : Int} {chunks : List Chunk} {ids : List Int}
    (swapped : t.Swapped script chunks ids t') (count : ids.length = chunks.length)
    (storable : Chunk.Storable chunks) :
    ∃ stored, t'.listChunks script = .ok stored ∧ stored.map StoredChunk.chunk = chunks := by
  obtain ⟨stored, read, perm, ascend, -⟩ := swapped.read storable.legible
  have given : ((ids.zip chunks).map fun p => p.2.stored script p.1).map StoredChunk.chunk = chunks := by
    rw [List.map_map]
    calc
      _ = (ids.zip chunks).map Prod.snd := by
        refine List.map_congr_left fun p member => ?_
        exact Chunk.stored_chunk (storable.dependencies p.2 (List.of_mem_zip member).2) script p.1
      _ = chunks := List.map_snd_zip (Nat.le_of_eq count.symm)
  have ordered : ((ids.zip chunks).map fun p => p.2.stored script p.1).Pairwise
      fun a b => a.chunk.id < b.chunk.id := by
    rw [← List.pairwise_map (f := StoredChunk.chunk) (R := fun a b => a.id < b.id), given]
    exact storable.ascend
  have same := perm.eq_of_pairwise (fun a b _ _ less greater => absurd less (by omega)) ascend ordered
  exact ⟨stored, read, by rw [same, given]⟩

theorem Sound.store_script (sound : t.Sound) {project : Int} (present : ∃ p ∈ t.projects, p.id = project)
    (path : Text) (facts : ScriptFacts) {chunks : List Chunk} (storable : Chunk.Storable chunks) :
    ∃ row between ids after, t.upsertScript project path facts = (.ok row, between) ∧
      between.swapChunks row.id chunks = (.ok ids, after) ∧ after.Sound ∧ after.projects = t.projects ∧
      after.Stores project path facts chunks ∧
      ∀ q other, (q, other) ≠ (project, path) → after.record? q other = t.record? q other := by
  obtain ⟨row, between, put⟩ : ∃ row between, t.upsertScript project path facts = (.ok row, between) := by
    rcases upsertScript_cases t project path facts with ⟨old, -, same⟩ | ⟨-, missing, -⟩ | ⟨-, -, same⟩
    · exact ⟨_, _, same⟩
    · obtain ⟨p, known, here⟩ := present
      exact absurd here (missing p known)
    · exact ⟨_, _, same⟩
  obtain ⟨factsRead, here, others, projects, chunkRows, dependencyRows⟩ := sound.upsertScript_eq_ok put
  have middle := sound.upsertScript project path facts
  rw [put] at middle
  have numbers : (chunks.map Chunk.id).Nodup :=
    (List.pairwise_map.mpr storable.ascend).imp fun less => Int.ne_of_lt less
  have distinct : ∀ c ∈ chunks, c.dependencies.Nodup := fun c member =>
    (storable.dependencies c member).imp fun less => Int.ne_of_lt less
  have swap := (middle.swapChunks_eq_ok_iff row.id chunks _ _).mpr
    ⟨⟨numbers, distinct, .inl ⟨row, (scriptAt_eq_some between here).1, rfl⟩⟩, rfl, rfl⟩
  have swapped := middle.swapped row.id chunks _ _ swap
  refine ⟨row, between, _, _, put, swap, swapped.sound, swapped.projects.trans projects, ?_, ?_⟩
  · obtain ⟨stored, read, same⟩ := swapped.chunks (Chunk.keyed_length _ chunks) storable
    refine ⟨row, stored, ?_, factsRead, same⟩
    rw [record?, scriptAt?, swapped.scripts, ← scriptAt?, here, Option.map_some, read]
  · intro q other different
    rw [record?, record?, scriptAt?, swapped.scripts, ← scriptAt?, ← others q other different]
    cases there : between.scriptAt? q other with
    | none => rfl
    | some r =>
        have apart : r.id ≠ row.id := fun same => different (middle.place_of_id here there same)
        rw [Option.map_some, Option.map_some, swapped.others r.id apart,
          listChunks_eq chunkRows dependencyRows]

/-! ### Removing -/

theorem scriptAt_eq_record (t : Tables) (project : Int) (path : Text) :
    t.scriptAt? project path = (t.record? project path).map Prod.fst := by
  rw [record?, Option.map_map]
  exact Option.map_id'.symm

theorem Sound.record_deleteScript (sound : t.Sound) (id q : Int) (other : Text) :
    (t.deleteScript id).record? q other = (t.record? q other).filter fun x => x.1.id != id := by
  have after := sound.deleteScript id
  cases there : t.scriptAt? q other with
  | none =>
      have gone : (t.deleteScript id).scriptAt? q other = none := by
        rw [scriptAt_eq_none] at there ⊢
        exact fun r member => there r (List.mem_of_mem_filter member)
      rw [record?, record?, gone, there]
      rfl
  | some r =>
      obtain ⟨member, place⟩ := scriptAt_eq_some t there
      by_cases same : r.id = id
      · have gone : (t.deleteScript id).scriptAt? q other = none := by
          rw [scriptAt_eq_none]
          intro r' kept place'
          obtain ⟨member', different⟩ := List.mem_filter.mp kept
          rw [List.inj_on_of_nodup_map sound.places member' member (place'.trans place.symm)] at different
          simp [same] at different
        rw [record?, record?, gone, there, Option.map_some, Option.filter_some, if_neg (by simp [same])]
        rfl
      · have stays : (t.deleteScript id).scriptAt? q other = some r :=
          (after.scriptAt_iff q other r).mpr ⟨List.mem_filter.mpr ⟨member, by simpa using same⟩, place⟩
        have chunks : (t.deleteScript id).listChunks r.id = t.listChunks r.id := by
          refine Eq.trans (congrFun (listChunks_eq rfl rfl) r.id) (sound.listChunks_removeChunks _ r.id ?_)
          intro c _ here
          simpa [here] using same
        rw [record?, record?, stays, there, Option.map_some, Option.map_some, chunks, Option.filter_some,
          if_pos (by simpa using same)]

end Tables

end ScriptAtlas
