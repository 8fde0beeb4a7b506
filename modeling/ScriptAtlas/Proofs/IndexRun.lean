import ScriptAtlas.Glob.Compile
import ScriptAtlas.Proofs.IndexStorage

/-!
A run of the index: every script that is found is counted once, the records of the project afterwards
are those of the scripts that were found, and the records of other projects stay.
-/

namespace ScriptAtlas

namespace Store

variable {s s' : Store}

theorem getProject_eq_ok_iff (isOpen : s.isClosed = false) (root : Text) (row : ProjectRow) :
    s.getProject root = .ok row ↔ s.tables.projectAt? root = some row := by
  rw [getProject, read_eq isOpen, Tables.getProject]
  cases s.tables.projectAt? root <;> simp

theorem getScript_eq_ok_iff (isOpen : s.isClosed = false) (project : Int) (path : Text) (row : ScriptRow) :
    s.getScript project path = .ok row ↔ s.tables.scriptAt? project path = some row := by
  rw [getScript, read_eq isOpen, Tables.getScript]
  cases s.tables.scriptAt? project path <;> simp

def SameScript (s s' : Store) (project : Int) (path : Text) : Prop :=
  s'.getScript project path = s.getScript project path ∧
    ∀ row, s.getScript project path = .ok row → s'.listChunks row.id = s.listChunks row.id

theorem sameScript_of_record (isOpen : s.isClosed = false) (isOpen' : s'.isClosed = false) {project : Int}
    {path : Text} (same : s'.tables.record? project path = s.tables.record? project path) :
    s.SameScript s' project path := by
  have found : s'.tables.scriptAt? project path = s.tables.scriptAt? project path := by
    rw [Tables.scriptAt_eq_record, Tables.scriptAt_eq_record, same]
  refine ⟨?_, fun row here => ?_⟩
  · rw [getScript, getScript, read_eq isOpen, read_eq isOpen', Tables.getScript, Tables.getScript, found]
  · rw [getScript_eq_ok_iff isOpen] at here
    rw [Tables.record?, Tables.record?, found, here, Option.map_some, Option.map_some, Option.some.injEq,
      Prod.mk.injEq] at same
    rw [listChunks, listChunks, read_eq isOpen, read_eq isOpen', same.2]

end Store

namespace Index

/-- A project of a root, as a run finds or makes it; the tables differ in the projects alone. -/
structure Opened (root : Text) (s : Store) (row : ProjectRow) (t : Tables) : Prop where
  opens : projectOf root s = (.ok row, { s with tables := t })
  sound : t.Sound
  member : row ∈ t.projects
  root_eq : row.root = root
  others : ∀ other, other ≠ root → t.projectAt? other = s.tables.projectAt? other
  scripts : t.scripts = s.tables.scripts
  chunks : t.chunks = s.tables.chunks
  dependencies : t.dependencies = s.tables.dependencies

theorem Opened.record {root : Text} {s : Store} {row : ProjectRow} {t : Tables} (opened : Opened root s row t) :
    t.record? = s.tables.record? :=
  Tables.record_eq opened.scripts opened.chunks opened.dependencies

theorem exists_opened (root : Text) {s : Store} (sound : s.Sound) : ∃ row t, Opened root s row t := by
  cases known : s.tables.projectAt? root with
  | some row =>
      have found := List.find?_some known
      refine ⟨row, s.tables, ?_, sound.tables, List.mem_of_find?_eq_some known, by simpa using found,
        fun _ _ => rfl, rfl, rfl, rfl⟩
      rw [projectOf, Store.getProject, Store.read_eq sound.isOpen, Tables.getProject, known]
  | none =>
      have unknown := List.find?_eq_none.mp known
      have kept := sound.tables.createProject root Migration.current.text
      rcases s.tables.createProject_cases root Migration.current.text with ⟨⟨p, member, here⟩, -⟩ | ⟨-, made⟩
      · exact absurd (by simpa using here) (unknown p member)
      · rw [made] at kept
        refine ⟨_, _, ?_, kept, List.mem_append_right _ (List.mem_singleton_self _), rfl, ?_, rfl, rfl, rfl⟩
        · rw [projectOf, Store.getProject, Store.read_eq sound.isOpen, Tables.getProject, known]
          dsimp only
          rw [Store.createProject, Store.change_eq sound.isOpen, made]
        · intro other apart
          have new : (root == other) = false := beq_eq_false_iff_ne.mpr apart.symm
          rw [Tables.projectAt?, List.find?_append, List.find?_singleton, new]
          exact Option.or_none

variable {globs : GlobLibrary} {lock : IndexLock} {tree : FileTree} {root analysis : Text} {plan : IndexPlan}
  {s s' : Store}

theorem workList_fst (found : List Text) (w : Text → ScriptWork) :
    (found.map fun path => (path, w path)).map Prod.fst = found := by
  rw [List.map_map]
  exact List.map_id' found

theorem run_eq {z : Sizing} {filter : PathFilter} {row : ProjectRow} {t : Tables} {found : List Text}
    (sound : s.Sound) (ready : prepare globs lock tree root plan = .ok (z, filter)) (opened : Opened root s row t)
    (listed : filter.discover tree root = .ok found) :
    let existing := s.tables.listScripts row.id
    let works := found.map fun path => (path, work tree root analysis z plan.force existing path)
    let stale := staleRows found existing
    run globs lock tree root analysis plan s =
      if found = [] ∨ s.begun = none then
        (.ok (reportOf works stale), { s with tables := settle row.id works stale t })
      else (.error (.store .begin .nestedTransaction), { s with tables := t }) := by
  intro existing works stale
  have middle : ({ s with tables := t } : Store).Sound := ⟨sound.isOpen, opened.sound, sound.begun⟩
  have before : ({ s with tables := t } : Store).listScripts row.id = .ok existing := by
    rw [Store.listScripts, Store.read_eq middle.isOpen, Tables.listScripts, opened.scripts]
    rfl
  have same : works.map Prod.fst = found := workList_fst found _
  have none_iff : works = [] ↔ found = [] := List.map_eq_nil_iff
  rw [run, ready]
  dsimp only
  rw [opened.opens]
  dsimp only
  rw [listed]
  dsimp only
  rw [before]
  dsimp only
  by_cases free : found = [] ∨ s.begun = none
  · have storable := works_storable found (work_storable tree root analysis z plan.force existing)
    have stored := storeProject_eq plan works existing middle (by rwa [none_iff]) ⟨row, opened.member, rfl⟩
      storable
    rw [same] at stored
    rw [if_pos free]
    exact stored
  · rw [if_neg free]
    rw [not_or, ← none_iff] at free
    exact storeProject_busy plan works existing middle.isOpen free.1 free.2

theorem ready_of_prepare {z : Sizing} {filter : PathFilter}
    (ready : prepare globs lock tree root plan = .ok (z, filter)) :
    plan.sizing.resolve = .ok z ∧
    PathFilter.compile globs plan.included (plan.ignored.getD PathFilter.defaultIgnored) = .ok filter ∧
    ∃ found, filter.discover tree root = .ok found := by
  simp only [prepare, bind, Except.bind, throw, throwThe, MonadExceptOf.throw, pure, Except.pure] at ready
  cases held : lock.holds root with
  | true => simp [held] at ready
  | false =>
      cases sized : plan.sizing.resolve with
      | error e => simp [held, sized] at ready
      | ok z' =>
          cases compiled : PathFilter.compile globs plan.included (plan.ignored.getD PathFilter.defaultIgnored) with
          | error e => simp [held, sized, compiled] at ready
          | ok filter' =>
              cases seen : tree.at? root with
              | error cause => simp [held, sized, compiled, FileTree.inspect, seen] at ready
              | ok node =>
                  simp only [held, sized, compiled, FileTree.inspect, seen, Bool.false_eq_true, if_false] at ready
                  split at ready
                  · cases ready
                    refine ⟨rfl, rfl, filter.scripts node, ?_⟩
                    rw [PathFilter.discover, FileTree.inspect, seen]
                    rfl
                  · cases ready

/-- A run fails and leaves all records, or it settles the records of its project. -/
theorem run_cases {result : Except IndexError IndexReport} (sound : s.Sound)
    (ran : run globs lock tree root analysis plan s = (result, s')) :
    (∃ e, result = .error e ∧ s'.Sound ∧ s'.begun = s.begun ∧ s'.tables.record? = s.tables.record?) ∨
    ∃ z filter row t found, prepare globs lock tree root plan = .ok (z, filter) ∧ Opened root s row t ∧
      filter.discover tree root = .ok found ∧ (found = [] ∨ s.begun = none) ∧
      let existing := s.tables.listScripts row.id
      let works := found.map fun path => (path, work tree root analysis z plan.force existing path)
      let stale := staleRows found existing
      result = .ok (reportOf works stale) ∧ s' = { s with tables := settle row.id works stale t } := by
  cases prepared : prepare globs lock tree root plan with
  | error e =>
      rw [run, prepared, Prod.mk.injEq] at ran
      obtain ⟨rfl, rfl⟩ := ran
      exact .inl ⟨e, rfl, sound, rfl, rfl⟩
  | ok ready =>
      obtain ⟨-, -, found, listed⟩ := ready_of_prepare prepared
      obtain ⟨row, t, opened⟩ := exists_opened root sound
      rw [run_eq sound prepared opened listed] at ran
      split at ran
      · rename_i free
        rw [Prod.mk.injEq] at ran
        exact .inr ⟨_, _, row, t, found, rfl, opened, listed, free, ran.1.symm, ran.2.symm⟩
      · rw [Prod.mk.injEq] at ran
        obtain ⟨rfl, rfl⟩ := ran
        exact .inl ⟨_, rfl, ⟨sound.isOpen, opened.sound, sound.begun⟩, rfl, opened.record⟩

theorem Opened.settled {row : ProjectRow} {t : Tables} (opened : Opened root s row t) (found : List Text)
    {w : Text → ScriptWork} (storable : ∀ path, (w path).Storable) :
    Settled row.id found w s.tables (settle row.id (found.map fun path => (path, w path))
      (staleRows found (s.tables.listScripts row.id)) t) := by
  have lists : s.tables.listScripts row.id = t.listScripts row.id := by
    rw [Tables.listScripts, Tables.listScripts, opened.scripts]
  rw [lists]
  have done := Index.settled found w opened.sound opened.member storable
  refine { done with kept := ?_, others := ?_ }
  · rw [← opened.record]
    exact done.kept
  · rw [← opened.record]
    exact done.others

/-! ### The report -/

theorem foldl_count (works : List (Text × ScriptWork)) (start : IndexStatistics) :
    let outcomes := works.map fun w => w.2.outcome
    let stats := works.foldl (fun stats w => count stats w.1 w.2) start
    stats.found = start.found ∧ stats.indexed = start.indexed + outcomes.count .indexed ∧
      stats.skipped = start.skipped + outcomes.count .skipped ∧
      stats.failed = start.failed + outcomes.count .failed := by
  induction works generalizing start with
  | nil => simp
  | cons first rest ih =>
      obtain ⟨found, indexed, skipped, failed⟩ := ih (count start first.1 first.2)
      simp only [List.map_cons, List.foldl_cons, found, indexed, skipped, failed]
      cases first.2 <;> simp [count, ScriptWork.outcome] <;> omega

theorem length_outcomes (outcomes : List IndexOutcome) :
    outcomes.length = outcomes.count .indexed + outcomes.count .skipped + outcomes.count .failed := by
  induction outcomes with
  | nil => rfl
  | cons first rest ih => cases first <;> simp [ih] <;> omega

/-- A report in which every script that was found counts once, by its outcome. -/
structure Tallied (report : IndexReport) : Prop where
  found : report.statistics.found = report.processed.length
  indexed : report.statistics.indexed = (report.processed.map Prod.snd).count .indexed
  skipped : report.statistics.skipped = (report.processed.map Prod.snd).count .skipped
  failed : report.statistics.failed = (report.processed.map Prod.snd).count .failed
  total : report.statistics.found =
    report.statistics.indexed + report.statistics.skipped + report.statistics.failed

theorem reportOf_tallied (works : List (Text × ScriptWork)) (stale : List ScriptRow) :
    Tallied (reportOf works stale) := by
  have outcomes : (reportOf works stale).processed.map Prod.snd = works.map fun w => w.2.outcome := by
    rw [reportOf, List.map_map]
    rfl
  obtain ⟨found, indexed, skipped, failed⟩ := foldl_count works { found := works.length }
  simp only [Nat.zero_add, ← outcomes] at found indexed skipped failed
  have total := length_outcomes ((reportOf works stale).processed.map Prod.snd)
  have length : (reportOf works stale).processed.length = works.length := List.length_map _
  rw [List.length_map, length, ← indexed, ← skipped, ← failed] at total
  exact ⟨found.trans length.symm, indexed, skipped, failed, found.trans total⟩

theorem reportOf_processed (found : List Text) (w : Text → ScriptWork) (stale : List ScriptRow) :
    (reportOf (found.map fun path => (path, w path)) stale).processed =
      found.map fun path => (path, (w path).outcome) := by
  rw [reportOf, List.map_map]
  rfl

theorem reportOf_paths (found : List Text) (w : Text → ScriptWork) (stale : List ScriptRow) :
    (reportOf (found.map fun path => (path, w path)) stale).processed.map Prod.fst = found := by
  rw [reportOf_processed, List.map_map]
  exact List.map_id' found

theorem mem_processed (found : List Text) (w : Text → ScriptWork) (stale : List ScriptRow) (path : Text)
    (outcome : IndexOutcome) :
    (path, outcome) ∈ (reportOf (found.map fun path => (path, w path)) stale).processed ↔
      path ∈ found ∧ (w path).outcome = outcome := by
  rw [reportOf_processed, List.mem_map]
  constructor
  · rintro ⟨path, member, ⟨⟩⟩
    exact ⟨member, rfl⟩
  · rintro ⟨member, rfl⟩
    exact ⟨path, member, rfl⟩

theorem Settled.stored_iff {z : Sizing} {force : Bool} {project : Int} {found : List Text} {t t' : Tables}
    (settled : Settled project found (work tree root analysis z force (t.listScripts project)) t t')
    (sound : t.Sound) (path : Text) :
    (t'.scriptAt? project path).isSome ↔ path ∈ found ∧
      ((work tree root analysis z force (t.listScripts project) path).outcome = .failed →
        (t.scriptAt? project path).isSome) := by
  rw [Tables.scriptAt_eq_record, Tables.scriptAt_eq_record, Option.isSome_map, Option.isSome_map]
  by_cases member : path ∈ found
  · rcases work_cases tree root analysis z force (t.listScripts project) path with
      ⟨e, failed⟩ | ⟨content, -, ⟨skipped, -, row, listed, rfl, -⟩ | chunked⟩
    · rw [settled.kept path member (by simp [failed, ScriptWork.outcome])]
      simp [member, failed, ScriptWork.outcome]
    · have known := sound.scriptAt_of_listed listed
      rw [settled.kept row.path member (by simp [skipped, ScriptWork.outcome])]
      simp [member, skipped, ScriptWork.outcome, Tables.record?, known]
    · obtain ⟨row, stored, here, -⟩ := settled.written path member _ _ chunked
      simp [member, chunked, ScriptWork.outcome, here]
  · simp [settled.removed path member, member]

/-- What a run that ends well reports, and what it leaves behind. -/
structure Accounted (report : IndexReport) (project : ProjectRow) (s s' : Store) : Prop where
  tallied : Tallied report
  /-- What was stored of the project and is not found any more is removed. -/
  removed : ∃ before, s.listScripts project.id = .ok before ∧ report.statistics.removed =
    before.countP fun r => !(report.processed.map Prod.fst).elem r.path
  stored : ∀ path, (∃ row, s'.getScript project.id path = .ok row) ↔
    (path, .indexed) ∈ report.processed ∨ (path, .skipped) ∈ report.processed ∨
      ((path, .failed) ∈ report.processed ∧ ∃ row, s.getScript project.id path = .ok row)
  kept : ∀ path, (path, .skipped) ∈ report.processed ∨ (path, .failed) ∈ report.processed →
    s.SameScript s' project.id path
  scripts : project.scripts = s'.tables.scripts.countP fun r => r.project == project.id
  chunks : project.chunks = s'.tables.chunks.countP fun c =>
    s'.tables.scripts.any fun r => r.id == c.script && r.project == project.id
  others : ∀ q, q ≠ project.id → s'.listScripts q = s.listScripts q ∧ ∀ path, s.SameScript s' q path

theorem Settled.accounted {z : Sizing} {force : Bool} {id : Int} {found : List Text} {t : Tables} (sound : s.Sound)
    (settled : Settled id found (work tree root analysis z force (s.tables.listScripts id)) s.tables t)
    {project : ProjectRow} (same : project.id = id)
    (scripts : project.scripts = t.scripts.countP fun r => r.project == id)
    (chunks : project.chunks = (t.projectChunks id).length) :
    Accounted
      (reportOf (found.map fun path => (path, work tree root analysis z force (s.tables.listScripts id) path))
        (staleRows found (s.tables.listScripts id)))
      project s { s with tables := t } := by
  subst same
  have stored := settled.stored_iff sound.tables
  generalize work tree root analysis z force (s.tables.listScripts project.id) = w at *
  have isOpen' : ({ s with tables := t } : Store).isClosed = false := sound.isOpen
  refine ⟨reportOf_tallied _ _, ⟨_, Store.read_eq sound.isOpen _ _, ?_⟩, ?_, ?_, scripts, ?_, ?_⟩
  · rw [reportOf_paths, List.countP_eq_length_filter]
    rfl
  · intro path
    simp only [mem_processed, Store.getScript_eq_ok_iff isOpen', Store.getScript_eq_ok_iff sound.isOpen,
      ← Option.isSome_iff_exists, stored]
    cases (w path).outcome <;> simp
  · intro path other
    simp only [mem_processed] at other
    refine Store.sameScript_of_record sound.isOpen isOpen' ?_
    rcases other with ⟨member, outcome⟩ | ⟨member, outcome⟩
    · exact settled.kept path member (by simp [outcome])
    · exact settled.kept path member (by simp [outcome])
  · rw [chunks, settled.sound.projectChunks_length]
  · intro q apart
    have records := settled.others q apart
    refine ⟨?_, fun path => Store.sameScript_of_record sound.isOpen isOpen' (congrFun records path)⟩
    rw [Store.listScripts, Store.listScripts, Store.read_eq isOpen', Store.read_eq sound.isOpen]
    refine congrArg Except.ok (sound.tables.listScripts_congr settled.sound fun path => ?_)
    rw [Tables.scriptAt_eq_record, Tables.scriptAt_eq_record, records]

/-- A run that ends well accounts for every script, changes its own project only, and does the same with
any number of scripts per transaction. -/
theorem run_accounts {report : IndexReport} (reachable : s.Reachable)
    (done : run globs lock tree root analysis plan s = (.ok report, s')) :
    ∃ filter project,
      PathFilter.compile globs plan.included (plan.ignored.getD PathFilter.defaultIgnored) = .ok filter ∧
      filter.discover tree root = .ok (report.processed.map Prod.fst) ∧
      s'.getProject root = .ok project ∧ Accounted report project s s' ∧
      (∀ other, other ≠ root → s'.getProject other = s.getProject other) ∧
      ∀ batch, run globs lock tree root analysis { plan with batch := batch } s = (.ok report, s') := by
  have sound := reachable.sound
  rcases run_cases sound done with ⟨e, failed, -⟩ | ⟨z, filter, row, t, found, ready, opened, listed, free,
    reported, stored⟩
  · cases failed
  have storable := work_storable tree root analysis z plan.force (s.tables.listScripts row.id)
  have settled := opened.settled found storable
  obtain ⟨⟨project, known, same, scripts, chunks⟩, others⟩ := settle_projects _
    (staleRows found (s.tables.listScripts row.id)) opened.sound opened.member
    (works_storable found storable)
  obtain ⟨-, compiled, -⟩ := ready_of_prepare ready
  rw [opened.root_eq] at known others
  cases reported
  subst stored
  refine ⟨filter, project, compiled, ?_, (Store.getProject_eq_ok_iff (by exact sound.isOpen) root _).mpr known,
    Settled.accounted sound settled same scripts chunks, ?_, ?_⟩
  · rw [listed, reportOf_paths]
  · intro other apart
    rw [Store.getProject, Store.getProject, Store.read_eq (by exact sound.isOpen), Store.read_eq sound.isOpen,
      Tables.getProject, Tables.getProject, others other apart, opened.others other apart]
  · intro batch
    have ready' : prepare globs lock tree root { plan with batch := batch } = .ok (z, filter) := ready
    rw [run_eq sound ready' opened listed, if_pos free]

def oneFile (name content : String) : FileTree :=
  .directory [("p", .directory [(name, .file content)])]

def reports (test : IndexReport → Bool) (ran : Except IndexError IndexReport × Store) : Bool :=
  match ran with
  | (.ok report, _) => test report
  | (.error _, _) => false

theorem reports_iff (test : IndexReport → Bool) (ran : Except IndexError IndexReport × Store) :
    reports test ran = true ↔ ∃ report s, ran = (.ok report, s) ∧ test report = true := by
  obtain ⟨result, s⟩ := ran
  cases result with
  | error e => simp [reports]
  | ok report => simp [reports]

/-- A script takes the place of another one, which is removed. -/
theorem run_accounts_one :
    let s := Store.oneScript.foldl StoreCall.perform {}
    s.Reachable ∧ ∃ report s' project,
      run Glob.library {} (oneFile "b.sql" "SELECT 1") "/p" "r" {} s = (.ok report, s') ∧
      report.processed = [(Text.ofString "b.sql", .indexed)] ∧ report.statistics.removed = 1 ∧
      s'.getProject "/p" = .ok project ∧ Accounted report project s s' := by
  intro s
  have reachable : s.Reachable := ⟨Store.oneScript, rfl⟩
  have replaced : reports
      (fun report => report.processed = [(Text.ofString "b.sql", .indexed)] ∧ report.statistics.removed = 1)
      (run Glob.library {} (oneFile "b.sql" "SELECT 1") "/p" "r" {} s) = true := by decide +kernel
  obtain ⟨report, s', done, told⟩ := (reports_iff _ _).mp replaced
  obtain ⟨processed, removed⟩ := of_decide_eq_true told
  obtain ⟨-, project, -, -, known, accounted, -⟩ := run_accounts reachable done
  exact ⟨reachable, report, s', project, done, processed, removed, known, accounted⟩

end Index

end ScriptAtlas
