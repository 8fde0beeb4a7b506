import ScriptAtlas.Index.Run
import ScriptAtlas.Proofs.Dependencies
import ScriptAtlas.Proofs.ExportRoundTrip
import ScriptAtlas.Proofs.ScriptRecords

/-!
How a run stores what it found: each chunked script is written to its place, the scripts that are gone are
removed, and all other records stay. How many scripts share a transaction makes no difference.
-/

namespace ScriptAtlas

theorem chunkContent_storable (content : Text) (z : Sizing) : Chunk.Storable (chunkContent content z) where
  ascend := Script.chunks_ascend _ z
  dependencies := fun c member => (Script.chunks_backward _ z c member).1
  legible := by
    have business : ∀ name ∈ Vocabulary.businessFunctions.map Prod.fst, name.isValid = true := by decide
    intro c member
    have named := (Script.chunks_told valid_prose _ z c member).names
    simp only [Chunk.Legible, List.forall_mem_cons]
    exact ⟨fun tag listed => tag_isValid (named.operations tag listed), named.declared, named.used,
      named.tables, named.control, fun name listed => business name (named.business name listed), by simp⟩

def ScriptWork.Storable (w : ScriptWork) : Prop :=
  ∀ facts chunks, w = .chunked facts chunks → Chunk.Storable chunks

namespace Index

/-- A script cannot be read, is current, is not covered, or is chunked. -/
theorem work_cases (tree : FileTree) (root analysis : Text) (z : Sizing) (force : Bool)
    (existing : List ScriptRow) (path : Text) :
    (∃ e, work tree root analysis z force existing path = .failed e) ∨
    ∃ content, tree.read (Path.join [root, path]) = .ok content ∧
      ((work tree root analysis z force existing path = .skipped ∧ force = false ∧
        ∃ row ∈ existing, row.path = path ∧ row.facts.hash = Digest.ofText content ∧
          row.facts.strategy = z.strategy.name) ∨
      work tree root analysis z force existing path = .chunked
        ⟨Digest.ofText content, content.length, (Script.splitLines content).length, z.strategy.name, analysis⟩
        (chunkContent content z)) := by
  rw [work]
  dsimp only
  split
  · exact .inl ⟨_, rfl⟩
  · exact .inl ⟨_, rfl⟩
  · rename_i content read _
    split
    · rename_i current
      refine .inr ⟨content, read, .inl ⟨rfl, ?_⟩⟩
      simp only [Bool.and_eq_true, Bool.not_eq_true', beq_iff_eq, Option.map_eq_some_iff] at current
      obtain ⟨unforced, row, found, same⟩ := current
      exact ⟨unforced, row, List.mem_of_find?_eq_some found, by simpa using List.find?_some found, same⟩
    · split
      · exact .inr ⟨content, read, .inr rfl⟩
      · exact .inl ⟨_, rfl⟩

theorem work_storable (tree : FileTree) (root analysis : Text) (z : Sizing) (force : Bool)
    (existing : List ScriptRow) (path : Text) : (work tree root analysis z force existing path).Storable := by
  intro facts chunks same
  rcases work_cases tree root analysis z force existing path with ⟨e, failed⟩ | ⟨content, -, skipped | chunked⟩
  · cases failed.symm.trans same
  · cases skipped.1.symm.trans same
  · cases chunked.symm.trans same
    exact chunkContent_storable content z

theorem works_storable (found : List Text) {w : Text → ScriptWork} (storable : ∀ path, (w path).Storable) :
    ∀ x ∈ found.map fun path => (path, w path), x.2.Storable := by
  rw [List.forall_mem_map]
  exact fun path _ => storable path

/-! ### Storing -/

def storeWork (project : Int) (t : Tables) (w : Text × ScriptWork) : Tables :=
  match w.2 with
  | .chunked facts chunks =>
    match t.upsertScript project w.1 facts with
    | (.ok row, t) => (t.swapChunks row.id chunks).2
    | (.error _, t) => t
  | _ => t

theorem storeWork_of_outcome (project : Int) (t : Tables) (w : Text × ScriptWork)
    (other : w.2.outcome ≠ .indexed) : storeWork project t w = t := by
  rw [storeWork]
  split
  · rename_i same
    rw [same] at other
    exact absurd rfl other
  · rfl

variable {project : Int}

/-- Storing one script changes the record at its place only. -/
theorem storeWork_spec {t : Tables} (sound : t.Sound) (present : ∃ p ∈ t.projects, p.id = project)
    (path : Text) (w : ScriptWork) (storable : w.Storable) :
    (storeWork project t (path, w)).Sound ∧ (storeWork project t (path, w)).projects = t.projects ∧
    (∀ facts chunks, w = .chunked facts chunks →
      (storeWork project t (path, w)).Stores project path facts chunks) ∧
    ∀ q other, (q, other) ≠ (project, path) →
      (storeWork project t (path, w)).record? q other = t.record? q other := by
  cases w with
  | chunked facts chunks =>
      obtain ⟨row, between, ids, after, put, swap, kept, projects, stores, others⟩ :=
        sound.store_script present path facts (storable facts chunks rfl)
      have same : storeWork project t (path, .chunked facts chunks) = after := by
        simp only [storeWork, put, swap]
      rw [same]
      refine ⟨kept, projects, ?_, others⟩
      rintro _ _ ⟨⟩
      exact stores
  | _ => exact ⟨sound, rfl, by rintro _ _ ⟨⟩, fun _ _ _ => rfl⟩

theorem storeWorks_kept (works : List (Text × ScriptWork)) {t : Tables} (sound : t.Sound)
    (present : ∃ p ∈ t.projects, p.id = project) (storable : ∀ w ∈ works, w.2.Storable) :
    (works.foldl (storeWork project) t).Sound ∧
      (works.foldl (storeWork project) t).projects = t.projects := by
  induction works generalizing t with
  | nil => exact ⟨sound, rfl⟩
  | cons first rest ih =>
      rw [List.forall_mem_cons] at storable
      obtain ⟨kept, projects, -⟩ := storeWork_spec sound present first.1 first.2 storable.1
      obtain ⟨kept', projects'⟩ := ih kept (by rw [projects]; exact present) storable.2
      exact ⟨kept', projects'.trans projects⟩

theorem storeWorks_records (found : List Text) (w : Text → ScriptWork) {t : Tables} (sound : t.Sound)
    (present : ∃ p ∈ t.projects, p.id = project) (storable : ∀ path, (w path).Storable) :
    let t' := (found.map fun path => (path, w path)).foldl (storeWork project) t
    (∀ path ∈ found, ∀ facts chunks, w path = .chunked facts chunks →
      t'.Stores project path facts chunks) ∧
    ∀ q other, (q = project → other ∈ found → (w other).outcome ≠ .indexed) →
      t'.record? q other = t.record? q other := by
  induction found generalizing t with
  | nil => exact ⟨by simp, fun _ _ _ => rfl⟩
  | cons path rest ih =>
      obtain ⟨kept, projects, stores, others⟩ := storeWork_spec sound present path (w path) (storable path)
      obtain ⟨stores', others'⟩ := ih kept (by rw [projects]; exact present)
      rw [List.map_cons, List.foldl_cons]
      constructor
      · intro p member facts chunks chunked
        by_cases again : p ∈ rest
        · exact stores' p again facts chunks chunked
        · have here : p = path := (List.mem_cons.mp member).resolve_right again
          subst here
          have untouched := others' project p fun _ inside => absurd inside again
          have written := stores facts chunks chunked
          rwa [Tables.Stores, ← untouched] at written
      · intro q other unwritten
        rw [others' q other fun same inside => unwritten same (List.mem_cons_of_mem path inside)]
        by_cases place : (q, other) = (project, path)
        · cases place
          rw [storeWork_of_outcome project t _ (unwritten rfl List.mem_cons_self)]
        · exact others q other place

theorem storeScripts_eq (works : List (Text × ScriptWork)) {s : Store} (sound : s.Sound)
    (present : ∃ p ∈ s.tables.projects, p.id = project) (storable : ∀ w ∈ works, w.2.Storable) :
    storeScripts project works s =
      (.ok (), { s with tables := works.foldl (storeWork project) s.tables }) := by
  induction works generalizing s with
  | nil => rfl
  | cons first rest ih =>
      obtain ⟨path, w⟩ := first
      rw [List.forall_mem_cons] at storable
      cases w with
      | chunked facts chunks =>
          obtain ⟨row, between, ids, after, put, swap, kept, projects, -, -⟩ :=
            sound.tables.store_script present path facts (storable.1 facts chunks rfl)
          have upsert : s.upsertScript project path facts = (.ok row, { s with tables := between }) := by
            rw [Store.upsertScript, Store.change_eq sound.isOpen, put]
          have middle : ({ s with tables := between } : Store).Sound := by
            have tables := sound.tables.upsertScript project path facts
            rw [put] at tables
            exact ⟨sound.isOpen, tables, sound.begun⟩
          have replace := (Store.replaceChunks_eq_ok_iff middle row.id chunks ids _).mpr ⟨after, swap, rfl⟩
          have same : storeWork project s.tables (path, .chunked facts chunks) = after := by
            simp only [storeWork, put, swap]
          rw [storeScripts, upsert]
          dsimp only
          rw [replace]
          dsimp only
          have next : ({ s with tables := after } : Store).Sound := ⟨sound.isOpen, kept, sound.begun⟩
          rw [ih next (by rw [projects]; exact present) storable.2, List.foldl_cons, same]
      | _ =>
          rw [storeScripts]
          · exact ih sound present storable.2
          · rintro _ _ ⟨⟩

theorem storeBatch_eq (batch : List (Text × ScriptWork)) {s : Store} (sound : s.Sound)
    (free : s.begun = none) (present : ∃ p ∈ s.tables.projects, p.id = project)
    (storable : ∀ w ∈ batch, w.2.Storable) :
    storeBatch project batch s =
      (.ok (), { s with tables := batch.foldl (storeWork project) s.tables }) := by
  have began : ({ s with begun := some s.tables } : Store).Sound :=
    ⟨sound.isOpen, sound.tables, by rintro t ⟨⟩; exact sound.tables⟩
  rw [storeBatch, Store.beginTransaction_eq sound.isOpen free]
  dsimp only
  rw [storeScripts_eq batch began present storable]
  dsimp only [Store.commit]
  rw [free]

/-- A transaction of its own for each batch stores what one for all of them would store. -/
theorem storeBatches_eq (parts : List (List (Text × ScriptWork))) {s : Store} (sound : s.Sound)
    (free : parts = [] ∨ s.begun = none) (present : ∃ p ∈ s.tables.projects, p.id = project)
    (storable : ∀ w ∈ parts.flatten, w.2.Storable) :
    storeBatches project parts s =
      (.ok (), { s with tables := parts.flatten.foldl (storeWork project) s.tables }) := by
  induction parts generalizing s with
  | nil => rfl
  | cons batch rest ih =>
      have idle : s.begun = none := free.resolve_left (List.cons_ne_nil batch rest)
      rw [List.flatten_cons, List.forall_mem_append] at storable
      obtain ⟨kept, projects⟩ := storeWorks_kept batch sound.tables present storable.1
      have next : ({ s with tables := batch.foldl (storeWork project) s.tables } : Store).Sound :=
        ⟨sound.isOpen, kept, sound.begun⟩
      rw [storeBatches, storeBatch_eq batch sound idle present storable.1]
      dsimp only
      rw [ih next (.inr idle) (by rw [projects]; exact present) storable.2, List.flatten_cons,
        List.foldl_append]

theorem batches_flatten {α : Type} (more : Nat) (xs : List α) : (batches more xs).flatten = xs := by
  induction xs using batches.induct more with
  | case1 => simp [batches]
  | case2 x xs ih => rw [batches, List.flatten_cons, ih, List.cons_append, List.take_append_drop]

theorem batches_eq_nil {α : Type} (more : Nat) (xs : List α) : batches more xs = [] ↔ xs = [] := by
  cases xs <;> simp [batches]

/-! ### Removing and counting -/

theorem removeScripts_eq (rows : List ScriptRow) {s : Store} (isOpen : s.isClosed = false) :
    removeScripts rows s =
      (.ok (), { s with tables := (rows.map ScriptRow.id).foldl Tables.deleteScript s.tables }) := by
  induction rows generalizing s with
  | nil => rfl
  | cons row rest ih =>
      have step : s.deleteScript row.id = (.ok (), { s with tables := s.tables.deleteScript row.id }) :=
        Store.change_eq isOpen none _
      rw [removeScripts, step]
      exact ih isOpen

theorem removeScripts_records (ids : List Int) {t : Tables} (sound : t.Sound) :
    let t' := ids.foldl Tables.deleteScript t
    t'.Sound ∧ t'.projects = t.projects ∧
    ∀ q path, t'.record? q path = (t.record? q path).filter fun x => !ids.elem x.1.id := by
  induction ids generalizing t with
  | nil =>
      refine ⟨sound, rfl, fun q path => ?_⟩
      rw [List.foldl_nil]
      cases t.record? q path <;> rfl
  | cons id rest ih =>
      obtain ⟨kept, projects, records⟩ := ih (sound.deleteScript id)
      refine ⟨kept, projects, fun q path => ?_⟩
      rw [List.foldl_cons, records q path, sound.record_deleteScript, Option.filter_filter]
      congr 1
      funext x
      rw [Bool.eq_iff_iff]
      simp

def recount (project : Int) (t : Tables) : Tables :=
  (t.updateProject project (t.scripts.countP fun r => r.project == project)
    (t.projectChunks project).length Migration.current.text).2

theorem recordCounts_eq {s : Store} (isOpen : s.isClosed = false)
    (present : ∃ p ∈ s.tables.projects, p.id = project) :
    recordCounts project s = (.ok (), { s with tables := recount project s.tables }) := by
  obtain ⟨row, known⟩ : ∃ row, s.tables.project? project = some row := by
    rw [← Option.isSome_iff_exists, Tables.project?, List.find?_isSome]
    simpa using present
  rw [recordCounts, Store.status, Store.read_eq isOpen, Tables.status, known]
  dsimp only
  rw [Store.updateProject, Store.change_eq isOpen]
  rcases s.tables.updateProject_cases project (s.tables.scripts.countP fun r => r.project == project)
    (s.tables.projectChunks project).length Migration.current.text with ⟨missing, -⟩ | ⟨-, done⟩
  · obtain ⟨p, member, same⟩ := present
    exact absurd same (missing p member)
  · rw [recount, done]

theorem recount_spec {t : Tables} (sound : t.Sound) {p : ProjectRow} (member : p ∈ t.projects) :
    (recount p.id t).Sound ∧ (recount p.id t).scripts = t.scripts ∧
    (recount p.id t).chunks = t.chunks ∧ (recount p.id t).dependencies = t.dependencies ∧
    { p with
      scripts := t.scripts.countP fun r => r.project == p.id
      chunks := (t.projectChunks p.id).length
      version := Migration.current.text } ∈ (recount p.id t).projects ∧
    ∀ other, other ≠ p.root → (recount p.id t).projectAt? other = t.projectAt? other := by
  have kept : (recount p.id t).Sound := sound.updateProject _ _ _ _
  refine ⟨kept, ?_⟩
  rcases t.updateProject_cases p.id (t.scripts.countP fun r => r.project == p.id)
    (t.projectChunks p.id).length Migration.current.text with ⟨missing, -⟩ | ⟨-, done⟩
  · exact absurd rfl (missing p member)
  · rw [recount, done] at kept ⊢
    refine ⟨rfl, rfl, rfl, List.mem_map.mpr ⟨p, member, if_pos (beq_self_eq_true p.id)⟩, ?_⟩
    intro other apart
    have unchanged : ∀ q ∈ t.projects, q.root = other → (q.id == p.id) = false := by
      intro q inside there
      rw [beq_eq_false_iff_ne]
      intro same
      exact apart (by rw [← there, sound.projects.eq_of_key inside member same])
    apply Option.ext
    intro q
    rw [kept.projectAt_iff, sound.projectAt_iff]
    constructor
    · rintro ⟨changed, there⟩
      obtain ⟨before, inside, rfl⟩ := List.mem_map.mp changed
      have root : before.root = other := by
        split at there <;> exact there
      rw [unchanged before inside root, if_neg Bool.false_ne_true]
      exact ⟨inside, root⟩
    · rintro ⟨inside, there⟩
      refine ⟨List.mem_map.mpr ⟨q, inside, ?_⟩, there⟩
      rw [unchanged q inside there, if_neg Bool.false_ne_true]

/-! ### All of it -/

/-- The tables after the scripts of a project were stored, the stale ones removed and all counted. -/
def settle (project : Int) (works : List (Text × ScriptWork)) (stale : List ScriptRow) (t : Tables) : Tables :=
  recount project ((stale.map ScriptRow.id).foldl Tables.deleteScript (works.foldl (storeWork project) t))

def reportOf (works : List (Text × ScriptWork)) (stale : List ScriptRow) : IndexReport where
  statistics := { works.foldl (fun stats w => count stats w.1 w.2) { found := works.length } with
    removed := stale.length }
  processed := works.map fun w => (w.1, w.2.outcome)

def staleRows (found : List Text) (existing : List ScriptRow) : List ScriptRow :=
  existing.filter fun r => !found.elem r.path

theorem storeProject_eq (plan : IndexPlan) (works : List (Text × ScriptWork)) (existing : List ScriptRow)
    {s : Store} (sound : s.Sound) (free : works = [] ∨ s.begun = none)
    (present : ∃ p ∈ s.tables.projects, p.id = project) (storable : ∀ w ∈ works, w.2.Storable) :
    storeProject project plan works existing s =
      (.ok (reportOf works (staleRows (works.map Prod.fst) existing)),
        { s with tables := settle project works (staleRows (works.map Prod.fst) existing) s.tables }) := by
  have parts := batches_flatten (batchSize plan - 1) works
  have stored := storeBatches_eq (batches (batchSize plan - 1) works) sound
    (by rwa [batches_eq_nil]) present (by rwa [parts])
  obtain ⟨kept, projects⟩ := storeWorks_kept works sound.tables present storable
  obtain ⟨-, projects', -⟩ := removeScripts_records
    ((staleRows (works.map Prod.fst) existing).map ScriptRow.id) kept
  rw [parts] at stored
  rw [storeProject, stored]
  dsimp only
  rw [removeScripts_eq _ (by exact sound.isOpen)]
  dsimp only
  rw [recordCounts_eq (by exact sound.isOpen) (by rw [← staleRows, projects', projects]; exact present)]
  rfl

theorem storeProject_busy (plan : IndexPlan) (works : List (Text × ScriptWork)) (existing : List ScriptRow)
    {s : Store} (isOpen : s.isClosed = false) (some : works ≠ []) (busy : s.begun ≠ none) :
    storeProject project plan works existing s = (.error (.store .begin .nestedTransaction), s) := by
  obtain ⟨first, rest, rfl⟩ := List.exists_cons_of_ne_nil some
  obtain ⟨t, began⟩ := Option.ne_none_iff_exists'.mp busy
  rw [storeProject, batches, storeBatches, storeBatch, Store.beginTransaction, if_neg (by simp [isOpen]), began]

/-- What a run makes of the records: those of the scripts found are written or kept, the others of the
project are gone, and those of other projects stay. -/
structure Settled (project : Int) (found : List Text) (w : Text → ScriptWork) (t t' : Tables) : Prop where
  sound : t'.Sound
  written : ∀ path ∈ found, ∀ facts chunks, w path = .chunked facts chunks →
    t'.Stores project path facts chunks
  kept : ∀ path ∈ found, (w path).outcome ≠ .indexed → t'.record? project path = t.record? project path
  removed : ∀ path, path ∉ found → t'.record? project path = none
  others : ∀ q, q ≠ project → t'.record? q = t.record? q

theorem mem_staleRows {found : List Text} {t : Tables} (sound : t.Sound) (r : ScriptRow) :
    r ∈ staleRows found (t.listScripts project) ↔
      ∃ path, path ∉ found ∧ t.scriptAt? project path = some r := by
  rw [staleRows, List.mem_filter]
  constructor
  · rintro ⟨listed, gone⟩
    exact ⟨r.path, by simpa using gone, sound.scriptAt_of_listed listed⟩
  · rintro ⟨path, gone, here⟩
    obtain ⟨member, place⟩ := Tables.scriptAt_eq_some t here
    cases place
    exact ⟨(t.mem_listScripts _ r).mpr ⟨member, rfl⟩, by simpa using gone⟩

theorem settled (found : List Text) (w : Text → ScriptWork) {t : Tables} (sound : t.Sound)
    {p : ProjectRow} (member : p ∈ t.projects) (storable : ∀ path, (w path).Storable) :
    Settled p.id found w t (settle p.id (found.map fun path => (path, w path))
      (staleRows found (t.listScripts p.id)) t) := by
  have present : ∃ other ∈ t.projects, other.id = p.id := ⟨p, member, rfl⟩
  obtain ⟨kept, projects⟩ := storeWorks_kept _ sound present (works_storable found storable)
  obtain ⟨stores, unwritten⟩ := storeWorks_records found w sound present storable
  rw [settle]
  generalize (found.map fun path => (path, w path)).foldl (storeWork p.id) t = between at *
  generalize ids : (staleRows found (t.listScripts p.id)).map ScriptRow.id = stale
  obtain ⟨kept', projects', records⟩ := removeScripts_records stale kept
  obtain ⟨counted, scripts, chunks, dependencies, -⟩ :=
    recount_spec kept' (by rw [projects', projects]; exact member)
  have same := Tables.record_eq scripts chunks dependencies
  -- a script that stays has a key apart from those that are removed, which stand at other places
  have stays : ∀ q path, (q = p.id → path ∈ found) →
      (recount p.id (stale.foldl Tables.deleteScript between)).record? q path = between.record? q path := by
    intro q path wanted
    rw [same, records]
    cases here : between.record? q path with
    | none => rfl
    | some x =>
        have apart : x.1.id ∉ stale := by
          rw [← ids, List.mem_map]
          rintro ⟨r, gone, key⟩
          obtain ⟨other, missing, there⟩ := (mem_staleRows sound r).mp gone
          have still : between.scriptAt? p.id other = some r := by
            rw [Tables.scriptAt_eq_record, unwritten p.id other fun _ inside => absurd inside missing,
              ← Tables.scriptAt_eq_record, there]
          have place := ((between.record_eq_some_iff q path x.1 x.2).mp here).1
          cases kept.place_of_id still place key.symm
          exact missing (wanted rfl)
        rw [Option.filter_some, if_pos (by simpa using apart)]
  refine ⟨counted, ?_, ?_, ?_, ?_⟩
  · intro path found facts chunks chunked
    obtain ⟨row, stored, here, rest⟩ := stores path found facts chunks chunked
    exact ⟨row, stored, by rw [stays p.id path fun _ => found, here], rest⟩
  · intro path found other
    rw [stays p.id path fun _ => found, unwritten p.id path fun _ _ => other]
  · intro path missing
    rw [same, records, unwritten p.id path fun _ inside => absurd inside missing, Option.filter_eq_none_iff]
    intro x here
    have place := ((t.record_eq_some_iff p.id path x.1 x.2).mp here).1
    have listed : x.1.id ∈ stale := by
      rw [← ids]
      exact List.mem_map_of_mem ((mem_staleRows sound x.1).mpr ⟨path, missing, place⟩)
    simpa using listed
  · intro q other
    funext path
    rw [stays q path fun same => absurd same other, unwritten q path fun same => absurd same other]

theorem settle_projects (works : List (Text × ScriptWork)) (stale : List ScriptRow) {t : Tables}
    (sound : t.Sound) {p : ProjectRow} (member : p ∈ t.projects) (storable : ∀ w ∈ works, w.2.Storable) :
    let t' := settle p.id works stale t
    (∃ p', t'.projectAt? p.root = some p' ∧ p'.id = p.id ∧
      p'.scripts = t'.scripts.countP (fun r => r.project == p.id) ∧
      p'.chunks = (t'.projectChunks p.id).length) ∧
    ∀ other, other ≠ p.root → t'.projectAt? other = t.projectAt? other := by
  obtain ⟨kept, projects⟩ := storeWorks_kept works sound ⟨p, member, rfl⟩ storable
  obtain ⟨kept', projects', -⟩ := removeScripts_records (stale.map ScriptRow.id) kept
  obtain ⟨sound', scripts, chunks, -, counted, others⟩ :=
    recount_spec kept' (by rw [projects', projects]; exact member)
  rw [← scripts, ← congrFun (Tables.projectChunks_eq scripts chunks) p.id] at counted
  refine ⟨⟨_, (sound'.projectAt_iff p.root _).mpr ⟨counted, rfl⟩, rfl, rfl, rfl⟩, fun other apart => ?_⟩
  rw [← Tables.projectAt_eq (projects'.trans projects)]
  exact others other apart

end Index

end ScriptAtlas
