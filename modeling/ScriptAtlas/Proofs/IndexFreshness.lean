import ScriptAtlas.Proofs.IndexRun

/-!
The index does not go stale. Every record in the store was made from content that some run has read, and
under one sizing this content says what the record holds. A script is skipped only if its digest is the
recorded one, so without collisions its record is that of its current content.
-/

namespace ScriptAtlas

/-! ### What a tree holds -/

namespace FileTree

mutual

def contents : FileTree → List Text
  | .file content => [content]
  | .lockedFile => []
  | .directory entries => contentsBelow entries

def contentsBelow : List (Text × FileTree) → List Text
  | [] => []
  | (_, node) :: rest => contents node ++ contentsBelow rest

end

theorem contents_child {entries : List (Text × FileTree)} {name : Text} {node : FileTree}
    (found : child? entries name = some node) : node.contents ⊆ contentsBelow entries := by
  induction entries with
  | nil => cases found
  | cons first rest ih =>
      obtain ⟨label, child⟩ := first
      rw [contentsBelow]
      rw [child?, List.find?_cons] at found
      split at found
      · cases found
        exact List.subset_append_left _ _
      · exact List.subset_append_of_subset_right _ (ih found)

/-- On the way up and down a tree there is nothing but its own files. -/
theorem contents_descend {held : List Text} (names : List Text) {above : List FileTree} {here node : FileTree}
    (higher : ∀ parent ∈ above, parent.contents ⊆ held) (inside : here.contents ⊆ held)
    (reached : descend above here names = .ok node) : node.contents ⊆ held := by
  induction names generalizing above here with
  | nil =>
      cases reached
      exact inside
  | cons name rest ih =>
      cases here with
      | file content => cases reached
      | lockedFile => cases reached
      | directory entries =>
          simp only [descend] at reached
          split at reached
          · exact ih higher inside reached
          · split at reached
            · split at reached
              · exact ih higher inside reached
              · rw [List.forall_mem_cons] at higher
                exact ih higher.2 higher.1 reached
            · split at reached
              · cases reached
              · rename_i child found
                rw [contents] at inside
                refine ih ?_ (List.Subset.trans (contents_child found) inside) reached
                rw [List.forall_mem_cons, contents]
                exact ⟨inside, higher⟩

theorem mem_contents_of_read {tree : FileTree} {path content : Text} (read : tree.read path = .ok content) :
    content ∈ tree.contents := by
  cases reached : tree.at? path with
  | error cause => simp [FileTree.read, inspect, reached] at read
  | ok node =>
      have held : node.contents ⊆ tree.contents := by
        rw [at?] at reached
        split at reached
        · cases reached
        · exact contents_descend _ (by simp) (List.Subset.refl _) reached
      cases node with
      | file found =>
          simp only [FileTree.read, inspect, reached, Except.ok.injEq] at read
          subst read
          exact held (by simp [contents])
      | lockedFile => simp [FileTree.read, inspect, reached] at read
      | directory entries => simp [FileTree.read, inspect, reached] at read

end FileTree

/-! ### Histories -/

/-- A run: the pattern library, the tree it sees and what it is called with. -/
structure IndexCall where
  globs : GlobLibrary := Glob.library
  lock : IndexLock := {}
  tree : FileTree
  root : Text
  analysis : Text := []
  plan : IndexPlan := {}

def IndexCall.run (c : IndexCall) (s : Store) : Except IndexError IndexReport × Store :=
  Index.run c.globs c.lock c.tree c.root c.analysis c.plan s

namespace Index

/-- The store after some runs on an empty one, whether they succeed or fail. -/
def after (calls : List IndexCall) : Store :=
  calls.foldl (fun s c => (c.run s).2) {}

def seen (calls : List IndexCall) : List Text :=
  calls.flatMap fun c => c.tree.contents

theorem seen_append (calls : List IndexCall) (last : IndexCall) :
    seen (calls ++ [last]) = seen calls ++ last.tree.contents := by
  rw [seen, List.flatMap_append, List.flatMap_singleton]
  rfl

structure Current (z : Sizing) (content : Text) (row : ScriptRow) (chunks : Except StoreError (List StoredChunk)) :
    Prop where
  hash : row.facts.hash = Digest.ofText content
  lines : row.facts.lines = (Script.splitLines content).length
  chunks : ∃ stored, chunks = .ok stored ∧ stored.map StoredChunk.chunk = chunkContent content z

/-- A store whose records are those of contents that were seen. -/
structure Fresh (z : Sizing) (contents : List Text) (s : Store) : Prop where
  sound : s.Sound
  idle : s.begun = none
  records : ∀ project path row chunks, s.tables.record? project path = some (row, chunks) →
    ∃ content ∈ contents, Current z content row chunks

variable {z : Sizing} {contents : List Text} {s s' : Store}

theorem fresh_empty (z : Sizing) : Fresh z [] {} where
  sound := ⟨rfl, Tables.sound_empty, by rintro t ⟨⟩⟩
  idle := rfl
  records := by rintro project path row chunks ⟨⟩

theorem Fresh.more (fresh : Fresh z contents s) {others : List Text} (included : contents ⊆ others) :
    Fresh z others s := by
  refine { fresh with records := fun project path row chunks here => ?_ }
  obtain ⟨content, member, current⟩ := fresh.records project path row chunks here
  exact ⟨content, included member, current⟩

theorem Settled.current {project : Int} {found : List Text} {w : Text → ScriptWork} {t t' : Tables}
    {content path : Text} {facts : ScriptFacts} (settled : Settled project found w t t') (member : path ∈ found)
    (hash : facts.hash = Digest.ofText content) (lines : facts.lines = (Script.splitLines content).length)
    (chunked : w path = .chunked facts (chunkContent content z)) :
    ∃ row chunks, t'.record? project path = some (row, chunks) ∧ Current z content row chunks := by
  obtain ⟨row, stored, here, rfl, same⟩ := settled.written path member _ _ chunked
  exact ⟨row, .ok stored, here, hash, lines, stored, rfl, same⟩

theorem Fresh.run (fresh : Fresh z contents s) {c : IndexCall} {result : Except IndexError IndexReport}
    (sized : ∀ resolved, c.plan.sizing.resolve = .ok resolved → resolved = z) (ran : c.run s = (result, s')) :
    Fresh z (contents ++ c.tree.contents) s' := by
  have before := fresh.more (List.subset_append_left contents c.tree.contents)
  rcases run_cases fresh.sound ran with ⟨e, -, sound, begun, same⟩ |
    ⟨resolved, filter, row, t, found, ready, opened, -, -, -, rfl⟩
  · refine ⟨sound, begun.trans fresh.idle, ?_⟩
    rw [same]
    exact before.records
  obtain ⟨resolves, -⟩ := ready_of_prepare ready
  cases sized resolved resolves
  have settled := opened.settled found
    (work_storable c.tree c.root c.analysis z c.plan.force (s.tables.listScripts row.id))
  refine ⟨⟨fresh.sound.isOpen, settled.sound, fresh.sound.begun⟩, fresh.idle, ?_⟩
  intro project path r chunks here
  by_cases own : project = row.id
  · subst own
    by_cases member : path ∈ found
    · rcases work_cases c.tree c.root c.analysis z c.plan.force (s.tables.listScripts row.id) path with
        ⟨e, failed⟩ | ⟨content, read, ⟨skipped, -⟩ | chunked⟩
      · rw [settled.kept path member (by simp [failed, ScriptWork.outcome])] at here
        exact before.records _ _ _ _ here
      · rw [settled.kept path member (by simp [skipped, ScriptWork.outcome])] at here
        exact before.records _ _ _ _ here
      · obtain ⟨r', chunks', there, current⟩ := settled.current member rfl rfl chunked
        cases here.symm.trans there
        exact ⟨content, List.mem_append_right _ (FileTree.mem_contents_of_read read), current⟩
    · rw [settled.removed path member] at here
      cases here
  · rw [settled.others project own] at here
    exact before.records _ _ _ _ here

theorem fresh_after (calls : List IndexCall)
    (sized : ∀ c ∈ calls, ∀ resolved, c.plan.sizing.resolve = .ok resolved → resolved = z) :
    Fresh z (seen calls) (after calls) := by
  have from_here : ∀ s contents, Fresh z contents s →
      Fresh z (contents ++ seen calls) (calls.foldl (fun s c => (c.run s).2) s) := by
    induction calls with
    | nil => exact fun s contents fresh => fresh.more (List.subset_append_left _ _)
    | cons c rest ih =>
        intro s contents fresh
        rw [List.forall_mem_cons] at sized
        have next := ih sized.2 _ _ (fresh.run sized.1 rfl)
        rwa [List.append_assoc] at next
  exact from_here {} [] (fresh_empty z)

/-- A script that does not fail has the record of its content: it is written, or it is the one of an earlier
content with the same digest. -/
theorem Fresh.served {tree : FileTree} {root analysis path : Text} {force : Bool} {project : Int}
    {found : List Text} {t' : Tables} (fresh : Fresh z contents s)
    (distinct : ∀ a ∈ contents, ∀ b ∈ tree.contents, Digest.ofText a = Digest.ofText b → a = b)
    (settled : Settled project found (work tree root analysis z force (s.tables.listScripts project)) s.tables t')
    (member : path ∈ found)
    (processed : (work tree root analysis z force (s.tables.listScripts project) path).outcome ≠ .failed) :
    ∃ content row chunks, tree.read (Path.join [root, path]) = .ok content ∧
      t'.record? project path = some (row, chunks) ∧ Current z content row chunks := by
  rcases work_cases tree root analysis z force (s.tables.listScripts project) path with
    ⟨e, failed⟩ | ⟨content, read, ⟨skipped, -, row, listed, rfl, same, -⟩ | chunked⟩
  · rw [failed] at processed
    exact absurd rfl processed
  · have place := fresh.sound.tables.scriptAt_of_listed listed
    have here := (s.tables.record_eq_some_iff project row.path row _).mpr ⟨place, rfl⟩
    obtain ⟨earlier, before, current⟩ := fresh.records _ _ _ _ here
    cases distinct earlier before content (FileTree.mem_contents_of_read read) (current.hash.symm.trans same)
    rw [← settled.kept row.path member (by simp [skipped, ScriptWork.outcome])] at here
    exact ⟨content, row, _, read, here, current⟩
  · obtain ⟨row, chunks, here, current⟩ := settled.current member rfl rfl chunked
    exact ⟨content, row, chunks, read, here, current⟩

/-- At a path below the root of a run there is one row, with the digest and the number of lines of the content
that stands there, and the chunks in store are those of this content. -/
def Serves (c : IndexCall) (z : Sizing) (s : Store) (project : Int) (path : Text) : Prop :=
  ∃ content row stored, c.tree.read (Path.join [c.root, path]) = .ok content ∧
    (s.tables.scripts.filter fun r => r.project == project && r.path == path) = [row] ∧
    row.facts.hash = Digest.ofText content ∧ row.facts.lines = (Script.splitLines content).length ∧
    s.listChunks row.id = .ok stored ∧ stored.map StoredChunk.chunk = chunkContent content z

/-- Under one sizing no run leaves stale chunks: after one that ends well, each script that it found and that
did not fail is stored as it is now, whatever runs there were before. -/
theorem run_fresh (z : Sizing) (calls : List IndexCall) (last : IndexCall) {report : IndexReport} {s' : Store}
    (sized : ∀ c ∈ calls ++ [last], c.plan.sizing = z)
    (distinct : ∀ a ∈ seen (calls ++ [last]), ∀ b ∈ seen (calls ++ [last]),
      Digest.ofText a = Digest.ofText b → a = b)
    (done : last.run (after calls) = (.ok report, s')) :
    ∃ resolved filter project, z.resolve = .ok resolved ∧
      PathFilter.compile last.globs last.plan.included (last.plan.ignored.getD PathFilter.defaultIgnored) = .ok filter ∧
      filter.discover last.tree last.root = .ok (report.processed.map Prod.fst) ∧
      s'.getProject last.root = .ok project ∧
      ∀ path outcome, (path, outcome) ∈ report.processed → outcome ≠ .failed →
        Serves last resolved s' project.id path := by
  rw [List.forall_mem_append, List.forall_mem_singleton] at sized
  rw [seen_append] at distinct
  obtain ⟨resolved, only⟩ : ∃ resolved, ∀ other, z.resolve = .ok other → other = resolved := by
    cases z.resolve with
    | error e => exact ⟨z, by rintro _ ⟨⟩⟩
    | ok resolved => exact ⟨resolved, by rintro _ ⟨⟩; rfl⟩
  have fresh : Fresh resolved (seen calls) (after calls) :=
    fresh_after calls fun c member => by rw [sized.1 c member]; exact only
  rcases run_cases fresh.sound done with ⟨e, failed, -⟩ |
    ⟨other, filter, row, t, found, ready, opened, listed, -, reported, rfl⟩
  · cases failed
  obtain ⟨resolves, compiled, -⟩ := ready_of_prepare ready
  rw [sized.2] at resolves
  cases only other resolves
  have storable := work_storable last.tree last.root last.analysis resolved last.plan.force
    ((after calls).tables.listScripts row.id)
  have settled := opened.settled found storable
  obtain ⟨⟨project, known, same, -⟩, -⟩ := settle_projects _
    (staleRows found ((after calls).tables.listScripts row.id)) opened.sound opened.member
    (works_storable found storable)
  rw [opened.root_eq] at known
  have isOpen := fresh.sound.isOpen
  cases reported
  refine ⟨resolved, filter, project, resolves, compiled, by rw [listed, reportOf_paths],
    (Store.getProject_eq_ok_iff (by exact isOpen) _ _).mpr known, ?_⟩
  intro path outcome processed succeeded
  obtain ⟨member, rfl⟩ := (mem_processed _ _ _ _ _).mp processed
  obtain ⟨content, r, chunks, read, here, current⟩ := fresh.served
    (fun a before b now => distinct a (List.mem_append_left _ before) b (List.mem_append_right _ now))
    settled member succeeded
  obtain ⟨stored, ordered, chunked⟩ := current.chunks
  obtain ⟨place, chunks⟩ := (Tables.record_eq_some_iff _ _ _ _ _).mp here
  refine ⟨content, r, stored, read, ?_, current.hash, current.lines, ?_, chunked⟩
  · rw [same]
    exact settled.sound.filter_place place
  · rw [Store.listChunks, Store.read_eq (by exact isOpen), chunks, ordered]

def original : IndexCall :=
  { tree := oneFile "a.sql" "SELECT 1", root := "/p" }

def edited : IndexCall :=
  { tree := oneFile "a.sql" "SELECT 2", root := "/p" }

theorem run_fresh_edited :
    (∀ c ∈ [original] ++ [edited], c.plan.sizing = {}) ∧
    (∀ a ∈ seen ([original] ++ [edited]), ∀ b ∈ seen ([original] ++ [edited]),
      Digest.ofText a = Digest.ofText b → a = b) ∧
    ∃ report s' resolved project, edited.run (after [original]) = (.ok report, s') ∧
      s'.getProject "/p" = .ok project ∧ (Text.ofString "a.sql", .indexed) ∈ report.processed ∧
      Serves edited resolved s' project.id "a.sql" := by
  have sized : ∀ c ∈ [original] ++ [edited], c.plan.sizing = {} := by decide
  have distinct : ∀ a ∈ seen ([original] ++ [edited]), ∀ b ∈ seen ([original] ++ [edited]),
      Digest.ofText a = Digest.ofText b → a = b := by decide +kernel
  have told : reports (fun report => report.processed = [(Text.ofString "a.sql", .indexed)])
      (edited.run (after [original])) = true := by decide +kernel
  obtain ⟨report, s', done, told⟩ := (reports_iff _ _).mp told
  have indexed : (Text.ofString "a.sql", .indexed) ∈ report.processed := by simp [of_decide_eq_true told]
  obtain ⟨resolved, -, project, -, -, -, known, served⟩ := run_fresh {} [original] edited sized distinct done
  exact ⟨sized, distinct, report, s', resolved, project, done, known, indexed, served _ _ indexed (by decide)⟩

end Index

end ScriptAtlas
