import Mathlib.Data.List.Nodup
import ScriptAtlas.Store.Basic

/-!
What every reachable store keeps: keys that are distinct and were handed out, roots, places and chunk
numbers that occur once, and references that lead to a row.
-/

namespace ScriptAtlas

/-! ### Rows with keys -/

theorem nodup_keys_add {α β : Type} {key : α → β} {rows : List α} (distinct : (rows.map key).Nodup)
    (row : α) (fresh : ∀ r ∈ rows, key r ≠ key row) : ((rows ++ [row]).map key).Nodup := by
  rw [List.map_append, List.map_singleton, List.nodup_append_comm, List.singleton_append,
    List.nodup_cons]
  refine ⟨fun known => ?_, distinct⟩
  obtain ⟨r, member, same⟩ := List.mem_map.mp known
  exact fresh r member same

theorem nodup_keys_update {α β : Type} {key : α → β} {rows : List α} (distinct : (rows.map key).Nodup)
    (f : α → α) (same : ∀ r ∈ rows, key (f r) = key r) : ((rows.map f).map key).Nodup := by
  have keys : (rows.map f).map key = rows.map key := by
    rw [List.map_map]
    exact List.map_congr_left same
  rw [keys]
  exact distinct

theorem find_key_iff {α β : Type} [BEq β] [LawfulBEq β] {key : α → β} {rows : List α}
    (distinct : (rows.map key).Nodup) (k : β) (r : α) :
    rows.find? (fun r => key r == k) = some r ↔ r ∈ rows ∧ key r = k := by
  constructor
  · intro found
    exact ⟨List.mem_of_find?_eq_some found, by simpa using List.find?_some found⟩
  · rintro ⟨member, rfl⟩
    cases found : rows.find? fun other => key other == key r with
    | none => exact absurd (List.find?_eq_none.mp found r member) (by simp)
    | some other =>
        have same : key other = key r := by simpa using List.find?_some found
        rw [List.inj_on_of_nodup_map distinct (List.mem_of_find?_eq_some found) member same]

/-- Rows with distinct keys that do not go beyond the last one handed out. -/
structure KeyedRows {α : Type} (key : α → Int) (last : Int) (rows : List α) : Prop where
  distinct : (rows.map key).Nodup
  bounded : ∀ r ∈ rows, key r ≤ last

namespace KeyedRows

variable {α : Type} {key : α → Int} {last : Int} {rows : List α}

theorem later (keyed : KeyedRows key last rows) : KeyedRows key (last + 1) rows where
  distinct := keyed.distinct
  bounded := fun r member => by
    have before := keyed.bounded r member
    omega

theorem add (keyed : KeyedRows key last rows) (row : α) (fresh : key row = last + 1) :
    KeyedRows key (last + 1) (rows ++ [row]) where
  distinct := nodup_keys_add keyed.distinct row fun r member => by
    have before := keyed.bounded r member
    omega
  bounded := by
    intro r member
    rcases List.mem_append.mp member with old | new
    · exact keyed.later.bounded r old
    · rw [List.mem_singleton] at new
      exact Int.le_of_eq (by rw [new, fresh])

theorem filter (keyed : KeyedRows key last rows) (keep : α → Bool) : KeyedRows key last (rows.filter keep) where
  distinct := keyed.distinct.sublist (List.filter_sublist.map key)
  bounded := fun r member => keyed.bounded r (List.mem_of_mem_filter member)

theorem update (keyed : KeyedRows key last rows) (f : α → α) (same : ∀ r ∈ rows, key (f r) = key r) :
    KeyedRows key last (rows.map f) where
  distinct := nodup_keys_update keyed.distinct f same
  bounded := by
    intro r member
    obtain ⟨old, inside, rfl⟩ := List.mem_map.mp member
    rw [same old inside]
    exact keyed.bounded old inside

theorem eq_of_key (keyed : KeyedRows key last rows) {a b : α} (first : a ∈ rows) (second : b ∈ rows)
    (same : key a = key b) : a = b :=
  List.inj_on_of_nodup_map keyed.distinct first second same

end KeyedRows

/-! ### What an action on the tables can do -/

def ScriptRow.place (r : ScriptRow) : Int × Text :=
  (r.project, r.path)

def ChunkRow.place (r : ChunkRow) : Int × Int :=
  (r.script, r.number)

namespace Tables

variable (t : Tables)

theorem createProject_cases (root version : Text) :
    ((∃ p ∈ t.projects, p.root = root) ∧ t.createProject root version =
      (.error (.projectExists root), { t with lastProject := t.lastProject + 1 })) ∨
    ((∀ p ∈ t.projects, p.root ≠ root) ∧ t.createProject root version =
      (.ok ⟨t.lastProject + 1, root, 0, 0, version⟩,
        { t with
          projects := t.projects ++ [⟨t.lastProject + 1, root, 0, 0, version⟩]
          lastProject := t.lastProject + 1 })) := by
  cases known : t.projectAt? root with
  | some p =>
      have found := List.find?_some known
      refine .inl ⟨⟨p, List.mem_of_find?_eq_some known, by simpa using found⟩, ?_⟩
      simp only [createProject, projectAt?] at known ⊢
      rw [known]
  | none =>
      refine .inr ⟨fun p member => by simpa using List.find?_eq_none.mp known p member, ?_⟩
      simp only [createProject, projectAt?] at known ⊢
      rw [known]

theorem updateProject_cases (id scripts chunks : Int) (version : Text) :
    ((∀ p ∈ t.projects, p.id ≠ id) ∧ t.updateProject id scripts chunks version =
      (.error (.projectMissing id), t)) ∨
    ((∃ p ∈ t.projects, p.id = id) ∧ t.updateProject id scripts chunks version =
      (.ok (), { t with projects := t.projects.map fun p =>
        if p.id == id then { p with scripts := scripts, chunks := chunks, version := version } else p })) := by
  cases known : t.project? id with
  | none =>
      refine .inl ⟨fun p member => by simpa using List.find?_eq_none.mp known p member, ?_⟩
      rw [updateProject, known]
  | some p =>
      have found := List.find?_some known
      refine .inr ⟨⟨p, List.mem_of_find?_eq_some known, by simpa using found⟩, ?_⟩
      rw [updateProject, known]

theorem scriptAt_eq_none (project : Int) (path : Text) :
    t.scriptAt? project path = none ↔ ∀ r ∈ t.scripts, r.place ≠ (project, path) := by
  rw [scriptAt?, List.find?_eq_none]
  simp [ScriptRow.place]

theorem scriptAt_eq_some {project : Int} {path : Text} {r : ScriptRow}
    (found : t.scriptAt? project path = some r) : r ∈ t.scripts ∧ r.place = (project, path) := by
  have here := List.find?_some found
  simp only [Bool.and_eq_true, beq_iff_eq] at here
  exact ⟨List.mem_of_find?_eq_some found, Prod.ext here.1 here.2⟩

/-- The facts of a script are replaced, the project is missing, or the script is new. -/
theorem upsertScript_cases (project : Int) (path : Text) (facts : ScriptFacts) :
    (∃ old, t.scriptAt? project path = some old ∧ t.upsertScript project path facts =
      (.ok { old with facts := facts }, { t with
        scripts := t.scripts.map fun r => if r.id == old.id then { old with facts := facts } else r
        lastScript := t.lastScript + 1 })) ∨
    (t.scriptAt? project path = none ∧ (∀ p ∈ t.projects, p.id ≠ project) ∧
      t.upsertScript project path facts = (.error (.constraint .upsertScript), t)) ∨
    (t.scriptAt? project path = none ∧ (∃ p ∈ t.projects, p.id = project) ∧
      t.upsertScript project path facts =
        (.ok ⟨t.lastScript + 1, project, path, facts⟩, { t with
          scripts := t.scripts ++ [⟨t.lastScript + 1, project, path, facts⟩]
          lastScript := t.lastScript + 1 })) := by
  cases place : t.scriptAt? project path with
  | some old => exact .inl ⟨old, rfl, by rw [upsertScript, place]⟩
  | none =>
      cases owner : t.project? project with
      | none =>
          refine .inr (.inl ⟨rfl, fun p member => ?_, by rw [upsertScript, place, owner]⟩)
          simpa using List.find?_eq_none.mp owner p member
      | some p =>
          have found := List.find?_some owner
          refine .inr (.inr ⟨rfl, ⟨p, List.mem_of_find?_eq_some owner, by simpa using found⟩, ?_⟩)
          rw [upsertScript, place, owner]

theorem insertChunk_cases (script : Int) (c : Chunk) :
    (((∀ r ∈ t.scripts, r.id ≠ script) ∨ ∃ r ∈ t.chunks, r.place = (script, c.id)) ∧
      t.insertChunk script c = (.error (.constraint (.insertChunk c.id)), t)) ∨
    ((∃ r ∈ t.scripts, r.id = script) ∧ (∀ r ∈ t.chunks, r.place ≠ (script, c.id)) ∧
      t.insertChunk script c = (.ok (t.lastChunk + 1), { t with
        chunks := t.chunks ++ [ChunkRow.ofChunk (t.lastChunk + 1) script c]
        lastChunk := t.lastChunk + 1 })) := by
  rw [insertChunk]
  split
  · rename_i refused
    refine .inl ⟨?_, rfl⟩
    simpa [script?, ChunkRow.place] using refused
  · rename_i accepted
    refine .inr ?_
    simpa [script?, ChunkRow.place] using accepted

/-- Dependencies are added behind the others, until one stands there already. -/
theorem insertDependencies_added (row number : Int) (ons : List Int) (t : Tables) :
    ∃ added, (insertDependencies row number ons t).2 =
      { t with dependencies := t.dependencies ++ added } ∧ ∀ d ∈ added, d.chunk = row := by
  induction ons generalizing t with
  | nil => exact ⟨[], by simp [insertDependencies], by simp⟩
  | cons on rest ih =>
      rw [insertDependencies]
      split
      · exact ⟨[], by simp, by simp⟩
      · obtain ⟨added, here, rows⟩ := ih { t with dependencies := t.dependencies ++ [⟨row, on⟩] }
        refine ⟨⟨row, on⟩ :: added, ?_, List.forall_mem_cons.mpr ⟨rfl, rows⟩⟩
        rw [here]
        simp

/-! ### Sound tables -/

/-- Tables whose keys, roots, places and chunk numbers are distinct and whose references lead to a row. -/
structure Sound (t : Tables) : Prop where
  projects : KeyedRows ProjectRow.id t.lastProject t.projects
  roots : (t.projects.map ProjectRow.root).Nodup
  scripts : KeyedRows ScriptRow.id t.lastScript t.scripts
  places : (t.scripts.map ScriptRow.place).Nodup
  owned : ∀ r ∈ t.scripts, ∃ p ∈ t.projects, p.id = r.project
  chunks : KeyedRows ChunkRow.id t.lastChunk t.chunks
  numbers : (t.chunks.map ChunkRow.place).Nodup
  held : ∀ c ∈ t.chunks, ∃ r ∈ t.scripts, r.id = c.script
  relied : ∀ d ∈ t.dependencies, ∃ c ∈ t.chunks, c.id = d.chunk

theorem sound_empty : ({} : Tables).Sound := by
  constructor <;> first | exact List.nodup_nil | exact ⟨List.nodup_nil, by simp⟩ | simp

namespace Sound

variable {t : Tables}

theorem createProject (sound : t.Sound) (root version : Text) : (t.createProject root version).2.Sound := by
  rcases createProject_cases t root version with ⟨-, same⟩ | ⟨unknown, same⟩
  · rw [same]
    exact { sound with projects := sound.projects.later }
  · rw [same]
    refine { sound with
      projects := sound.projects.add _ rfl
      roots := nodup_keys_add sound.roots _ unknown
      owned := ?_ }
    intro r member
    obtain ⟨p, inside, owner⟩ := sound.owned r member
    exact ⟨p, List.mem_append_left _ inside, owner⟩

theorem updateProject (sound : t.Sound) (id scripts chunks : Int) (version : Text) :
    (t.updateProject id scripts chunks version).2.Sound := by
  rcases updateProject_cases t id scripts chunks version with ⟨-, same⟩ | ⟨-, same⟩
  · rw [same]
    exact sound
  · rw [same]
    refine { sound with
      projects := sound.projects.update _ ?_
      roots := nodup_keys_update sound.roots _ ?_
      owned := ?_ }
    · intro p _
      split <;> rfl
    · intro p _
      split <;> rfl
    · intro r member
      obtain ⟨p, inside, owner⟩ := sound.owned r member
      refine ⟨_, List.mem_map_of_mem inside, ?_⟩
      split <;> exact owner

theorem update_place (sound : t.Sound) {old : ScriptRow} (member : old ∈ t.scripts) (facts : ScriptFacts) :
    ∀ r ∈ t.scripts, (if r.id == old.id then { old with facts := facts } else r).id = r.id ∧
      (if r.id == old.id then { old with facts := facts } else r).place = r.place := by
  intro r inside
  split
  · rename_i same
    rw [sound.scripts.eq_of_key inside member (by simpa using same)]
    exact ⟨rfl, rfl⟩
  · exact ⟨rfl, rfl⟩

theorem upsertScript (sound : t.Sound) (project : Int) (path : Text) (facts : ScriptFacts) :
    (t.upsertScript project path facts).2.Sound := by
  rcases upsertScript_cases t project path facts with ⟨old, found, same⟩ | ⟨-, -, same⟩ |
    ⟨new, owner, same⟩
  · -- the row of a known place keeps its key
    obtain ⟨member, -⟩ := scriptAt_eq_some t found
    have kept := sound.update_place member facts
    rw [same]
    refine { sound with
      scripts := (sound.scripts.update _ fun r inside => (kept r inside).1).later
      places := nodup_keys_update sound.places _ fun r inside => (kept r inside).2
      owned := ?_
      held := ?_ }
    · intro r changed
      obtain ⟨before, inside, rfl⟩ := List.mem_map.mp changed
      obtain ⟨p, known, owner⟩ := sound.owned before inside
      exact ⟨p, known, owner.trans (congrArg Prod.fst (kept before inside).2).symm⟩
    · intro c inside
      obtain ⟨r, known, owner⟩ := sound.held c inside
      exact ⟨_, List.mem_map_of_mem known, (kept r known).1.trans owner⟩
  · rw [same]
    exact sound
  · rw [same]
    refine { sound with
      scripts := sound.scripts.add _ rfl
      places := nodup_keys_add sound.places _ ((scriptAt_eq_none t project path).mp new)
      owned := ?_
      held := ?_ }
    · intro r member
      rcases List.mem_append.mp member with before | here
      · exact sound.owned r before
      · rw [List.mem_singleton] at here
        rw [here]
        exact owner
    · intro c inside
      obtain ⟨r, known, owner⟩ := sound.held c inside
      exact ⟨r, List.mem_append_left _ known, owner⟩

theorem removeChunks (sound : t.Sound) (drop : ChunkRow → Bool) : (t.removeChunks drop).Sound := by
  refine { sound with
    chunks := sound.chunks.filter _
    numbers := sound.numbers.sublist (List.filter_sublist.map _)
    held := fun c inside => sound.held c (List.mem_of_mem_filter inside)
    relied := ?_ }
  intro d inside
  obtain ⟨known, kept⟩ := List.mem_filter.mp inside
  obtain ⟨c, member, same⟩ := sound.relied d known
  refine ⟨c, List.mem_filter.mpr ⟨member, ?_⟩, same⟩
  rw [Bool.not_eq_true', Bool.eq_false_iff]
  intro dropped
  have gone : d.chunk ∈ (t.chunks.filter drop).map ChunkRow.id :=
    List.mem_map.mpr ⟨c, List.mem_filter.mpr ⟨member, dropped⟩, same⟩
  simp [gone] at kept

theorem deleteScript (sound : t.Sound) (id : Int) : (t.deleteScript id).Sound := by
  have rest := sound.removeChunks fun c => c.script == id
  refine { rest with
    scripts := sound.scripts.filter _
    places := sound.places.sublist (List.filter_sublist.map _)
    owned := fun r member => sound.owned r (List.mem_of_mem_filter member)
    held := ?_ }
  intro c inside
  obtain ⟨r, member, same⟩ := rest.held c inside
  refine ⟨r, List.mem_filter.mpr ⟨member, ?_⟩, same⟩
  have other := (List.mem_filter.mp inside).2
  simpa [same] using other

theorem insertDependencies (sound : t.Sound) (row number : Int) (ons : List Int)
    (known : ∃ c ∈ t.chunks, c.id = row) : (Tables.insertDependencies row number ons t).2.Sound := by
  obtain ⟨added, here, rows⟩ := insertDependencies_added row number ons t
  rw [here]
  refine { sound with relied := ?_ }
  intro d member
  rcases List.mem_append.mp member with old | new
  · exact sound.relied d old
  · rw [rows d new]
    exact known

theorem insertChunk (sound : t.Sound) (script : Int) (c : Chunk) : (t.insertChunk script c).2.Sound := by
  rcases insertChunk_cases t script c with ⟨-, same⟩ | ⟨owner, new, same⟩
  · rw [same]
    exact sound
  · rw [same]
    refine { sound with
      chunks := sound.chunks.add _ rfl
      numbers := nodup_keys_add sound.numbers _ new
      held := ?_
      relied := ?_ }
    · intro r member
      rcases List.mem_append.mp member with before | here
      · exact sound.held r before
      · rw [List.mem_singleton] at here
        rw [here]
        exact owner
    · intro d member
      obtain ⟨r, inside, same⟩ := sound.relied d member
      exact ⟨r, List.mem_append_left _ inside, same⟩

theorem insertChunks (sound : t.Sound) (script : Int) (chunks : List Chunk) :
    (Tables.insertChunks script chunks t).2.Sound := by
  induction chunks generalizing t with
  | nil => exact sound
  | cons c rest ih =>
      have first := sound.insertChunk script c
      rw [Tables.insertChunks]
      rcases insertChunk_cases t script c with ⟨-, same⟩ | ⟨-, -, same⟩
      · rw [same]
        exact sound
      · rw [same] at first ⊢
        have second := first.insertDependencies (t.lastChunk + 1) c.id c.dependencies
          ⟨_, List.mem_append_right _ (List.mem_singleton_self _), rfl⟩
        dsimp only
        split
        · rename_i added
          rw [added] at second
          exact second
        · rename_i added
          rw [added] at second
          have third := ih second
          split <;> rename_i later <;> rwa [later] at third

theorem swapChunks (sound : t.Sound) (script : Int) (chunks : List Chunk) :
    (t.swapChunks script chunks).2.Sound :=
  (sound.removeChunks _).insertChunks script chunks

theorem replaceChunks (sound : t.Sound) (script : Int) (chunks : List Chunk) :
    (t.replaceChunks script chunks).2.Sound := by
  have swapped := sound.swapChunks script chunks
  rw [Tables.replaceChunks]
  split
  · rename_i done
    rwa [done] at swapped
  · exact sound

end Sound

end Tables

/-! ### Reachable stores -/

inductive StoreCall where
  | createProject (root version : Text)
  | updateProject (id scripts chunks : Int) (version : Text)
  | upsertScript (project : Int) (path : Text) (facts : ScriptFacts)
  | deleteScript (id : Int)
  | replaceChunks (script : Int) (chunks : List Chunk)
  | beginTransaction
  | commit
  | rollBack
  deriving DecidableEq, Repr

def StoreCall.perform (s : Store) : StoreCall → Store
  | createProject root version => (s.createProject root version).2
  | updateProject id scripts chunks version => (s.updateProject id scripts chunks version).2
  | upsertScript project path facts => (s.upsertScript project path facts).2
  | deleteScript id => (s.deleteScript id).2
  | replaceChunks script chunks => (s.replaceChunks script chunks).2
  | beginTransaction => s.beginTransaction.2
  | commit => s.commit
  | rollBack => s.rollBack

namespace Store

/-- A store after some calls on an empty one. -/
def Reachable (s : Store) : Prop :=
  ∃ calls : List StoreCall, s = calls.foldl StoreCall.perform {}

theorem change_eq {α : Type} {s : Store} (isOpen : s.isClosed = false) (during : Option StoreAction)
    (f : Tables → Changed α) :
    s.change during f = ((f s.tables).1, { s with tables := (f s.tables).2 }) := by
  rw [change, if_neg (by simp [isOpen])]

theorem read_eq {α : Type} {s : Store} (isOpen : s.isClosed = false) (during : Option StoreAction)
    (f : Tables → Except StoreError α) : s.read during f = f s.tables := by
  rw [read, if_neg (by simp [isOpen])]

theorem beginTransaction_eq {s : Store} (isOpen : s.isClosed = false) (free : s.begun = none) :
    s.beginTransaction = (.ok (), { s with begun := some s.tables }) := by
  rw [beginTransaction, if_neg (by simp [isOpen]), free]

/-- An open store with sound tables, also at the beginning of an open transaction. -/
structure Sound (s : Store) : Prop where
  isOpen : s.isClosed = false
  tables : s.tables.Sound
  begun : ∀ t ∈ s.begun, t.Sound

namespace Sound

variable {s : Store}

theorem change {α : Type} (sound : s.Sound) (during : Option StoreAction) (f : Tables → Changed α)
    (kept : (f s.tables).2.Sound) : (s.change during f).2.Sound := by
  rw [change_eq sound.isOpen]
  exact ⟨sound.isOpen, kept, sound.begun⟩

theorem perform (sound : s.Sound) (call : StoreCall) : (call.perform s).Sound := by
  cases call with
  | createProject root version => exact sound.change _ _ (sound.tables.createProject root version)
  | updateProject id scripts chunks version =>
      exact sound.change _ _ (sound.tables.updateProject id scripts chunks version)
  | upsertScript project path facts => exact sound.change _ _ (sound.tables.upsertScript project path facts)
  | deleteScript id => exact sound.change _ _ (sound.tables.deleteScript id)
  | replaceChunks script chunks =>
      refine sound.change _ _ ?_
      split
      · exact sound.tables.swapChunks script chunks
      · exact sound.tables.replaceChunks script chunks
  | beginTransaction =>
      cases busy : s.begun with
      | some t =>
          rw [StoreCall.perform, Store.beginTransaction, if_neg (by simp [sound.isOpen]), busy]
          exact sound
      | none =>
          rw [StoreCall.perform, beginTransaction_eq sound.isOpen busy]
          exact ⟨sound.isOpen, sound.tables, by rintro t ⟨⟩; exact sound.tables⟩
  | commit => exact ⟨sound.isOpen, sound.tables, by rintro t ⟨⟩⟩
  | rollBack =>
      rw [StoreCall.perform, Store.rollBack]
      cases busy : s.begun with
      | none => exact sound
      | some t => exact ⟨sound.isOpen, sound.begun t busy, by rintro t ⟨⟩⟩

end Sound

theorem Reachable.sound {s : Store} (reachable : s.Reachable) : s.Sound := by
  obtain ⟨calls, rfl⟩ := reachable
  have run : ∀ s : Store, s.Sound → (calls.foldl StoreCall.perform s).Sound := by
    induction calls with
    | nil => exact fun s sound => sound
    | cons call rest ih => exact fun s sound => ih _ (sound.perform call)
  exact run {} ⟨rfl, Tables.sound_empty, by rintro t ⟨⟩⟩

end Store

end ScriptAtlas
