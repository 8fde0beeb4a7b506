import ScriptAtlas.Proofs.DirectoryPatterns
import ScriptAtlas.Proofs.SourceText
import ScriptAtlas.Proofs.TextOrder

/-!
The walk that finds the scripts of a tree. It does not enter directories that are hidden or ignored as a whole;
of all others it lists each file that passes the filter, once and in ascending order. Where the ignore patterns
cover what lies below the directories they match, leaving these out makes no difference.
-/

namespace ScriptAtlas

/-! ### Paths through names -/

namespace Path

def isName (name : Text) : Bool :=
  !name.isEmpty && !name.elem slash

def AreNames (names : List Text) : Prop :=
  ∀ name ∈ names, isName name = true

def through (names : List Text) : Text :=
  Text.join [slash] names

section Names

variable {names above : List Text} {name : Text}

theorem AreNames.spelled (clean : AreNames names) : ∀ name ∈ names, name ≠ [] ∧ slash ∉ name := by
  intro name member
  simpa [isName] using clean name member

theorem AreNames.extend (clean : AreNames above) (named : isName name = true) (below : AreNames names) :
    AreNames (above ++ name :: names) := by
  rw [AreNames, List.forall_mem_append, List.forall_mem_cons]
  exact ⟨clean, named, below⟩

theorem through_inj (first : AreNames names) (second : AreNames above) (same : through names = through above) :
    names = above :=
  Text.join_inj first.spelled second.spelled same

theorem through_ne_nil (clean : AreNames names) (some : names ≠ []) : through names ≠ [] := by
  intro none
  exact some (through_inj clean (nofun : AreNames []) none)

theorem names_through (clean : AreNames names) (some : names ≠ []) : Path.names (through names) = names :=
  Text.splitAt_join names some fun name member => (clean.spelled name member).2

theorem childPath_through (clean : AreNames above) (name : Text) :
    FileTree.childPath (through above) name = through (above ++ [name]) := by
  by_cases top : above = []
  · rw [top]
    rfl
  · rw [FileTree.childPath, if_neg (by simpa using through_ne_nil clean top), through, through,
      Text.join_append top (List.cons_ne_nil _ _)]
    rfl

end Names

end Path

/-! ### Trees and the places of their files -/

namespace FileTree

/-- What directories take over from their entries holds of every node. -/
@[elab_as_elim, induction_eliminator]
theorem nodes {motive : FileTree → Prop} (file : ∀ content, motive (.file content)) (lockedFile : motive .lockedFile)
    (directory : ∀ entries, (∀ entry ∈ entries, motive entry.2) → motive (.directory entries)) :
    ∀ node, motive node
  | .file content => file content
  | .lockedFile => lockedFile
  | .directory entries => directory entries fun entry _ => nodes file lockedFile directory entry.2
termination_by node => sizeOf node
decreasing_by
  rename_i member
  have listed := List.sizeOf_lt_of_mem member
  have inside : sizeOf entry.2 < sizeOf entry := by
    cases entry
    simp
  simp only [FileTree.directory.sizeOf_spec]
  omega

mutual

/-- In every directory the entries have names, each a different one. -/
def isProper : FileTree → Bool
  | .file _ | .lockedFile => true
  | .directory entries => decide (entries.map Prod.fst).Nodup && areProper entries

def areProper : List (Text × FileTree) → Bool
  | [] => true
  | (name, node) :: rest => Path.isName name && isProper node && areProper rest

end

def isFileAt : FileTree → List Text → Bool
  | .file _, [] | .lockedFile, [] => true
  | .directory entries, name :: rest =>
    match child? entries name with
    | some node => node.isFileAt rest
    | none => false
  | _, _ => false

variable {entries : List (Text × FileTree)} {names : List Text}

theorem areProper_iff : areProper entries = true ↔
    ∀ entry ∈ entries, Path.isName entry.1 = true ∧ entry.2.isProper = true := by
  induction entries with
  | nil => simp [areProper]
  | cons entry rest ih => rw [areProper, Bool.and_eq_true, Bool.and_eq_true, ih, List.forall_mem_cons]

theorem isProper_directory : (directory entries).isProper = true ↔ (entries.map Prod.fst).Nodup ∧
    ∀ entry ∈ entries, Path.isName entry.1 = true ∧ entry.2.isProper = true := by
  rw [isProper, Bool.and_eq_true, decide_eq_true_iff, areProper_iff]

theorem child?_eq_some (distinct : (entries.map Prod.fst).Nodup) (name : Text) (node : FileTree) :
    child? entries name = some node ↔ (name, node) ∈ entries := by
  induction entries with
  | nil => simp [child?]
  | cons entry rest ih =>
      obtain ⟨first, held⟩ := entry
      rw [List.map_cons, List.nodup_cons] at distinct
      rw [List.mem_cons]
      by_cases here : first = name
      · have absent : (name, node) ∉ rest := fun later => distinct.1 (List.mem_map.mpr ⟨_, later, here.symm⟩)
        simp [child?, here, absent, eq_comm]
      · have other : (name, node) ≠ (first, held) := fun same => here (Prod.mk.inj same).1.symm
        rw [or_iff_right other, ← ih distinct.2]
        simp [child?, here]

theorem isFileAt_directory (distinct : (entries.map Prod.fst).Nodup) :
    (directory entries).isFileAt names = true ↔
      ∃ entry ∈ entries, ∃ rest, names = entry.1 :: rest ∧ entry.2.isFileAt rest = true := by
  cases names with
  | nil => simp [isFileAt]
  | cons name rest =>
      rw [isFileAt]
      constructor
      · intro found
        split at found
        · rename_i node held
          exact ⟨(name, node), (child?_eq_some distinct name node).mp held, rest, rfl, found⟩
        · cases found
      · rintro ⟨⟨first, node⟩, member, rest', same, found⟩
        obtain ⟨rfl, rfl⟩ := List.cons.inj same
        rw [(child?_eq_some distinct name node).mpr member]
        exact found

theorem names_of_isFileAt {node : FileTree} (proper : node.isProper = true) (found : node.isFileAt names = true) :
    Path.AreNames names := by
  induction node generalizing names with
  | file content | lockedFile =>
      cases names with
      | nil => exact nofun
      | cons name rest => cases found
  | directory entries ih =>
      obtain ⟨distinct, each⟩ := isProper_directory.mp proper
      obtain ⟨entry, member, rest, rfl, below⟩ := (isFileAt_directory distinct).mp found
      rw [Path.AreNames, List.forall_mem_cons]
      exact ⟨(each entry member).1, ih entry member (each entry member).2 below⟩

end FileTree

/-! ### The walk -/

namespace PathFilter

variable {f : PathFilter} {above names : List Text} {name path : Text} {entries : List (Text × FileTree)}

theorem scriptsBelow_through (clean : Path.AreNames above) (entries : List (Text × FileTree)) :
    f.scriptsBelow (Path.through above) entries =
      entries.flatMap fun entry => f.scriptsAt entry.1 (Path.through (above ++ [entry.1])) entry.2 := by
  induction entries with
  | nil => rfl
  | cons entry rest ih => rw [scriptsBelow, Path.childPath_through clean, ih, List.flatMap_cons]

/-- Whether the walk gets from the directory `above` to a file: no directory on the way is hidden or skipped. -/
def enters (f : PathFilter) : List Text → List Text → Bool
  | above, name :: next :: rest =>
    !isHidden name && !f.skips (Path.through (above ++ [name])) && enters f (above ++ [name]) (next :: rest)
  | _, _ => true

theorem enters_cons (more : names ≠ []) (above : List Text) (name : Text) :
    f.enters above (name :: names) =
      (!isHidden name && !f.skips (Path.through (above ++ [name])) && f.enters (above ++ [name]) names) := by
  obtain ⟨next, rest, rfl⟩ := List.exists_cons_of_ne_nil more
  rfl

/-- The walk finds a file under `names` below the directory `above`. -/
@[mk_iff finds_iff]
structure Finds (f : PathFilter) (above names : List Text) (path : Text) : Prop where
  here : path = Path.through (above ++ names)
  entered : f.enters above names = true
  accepted : f.accepts path = true

theorem mem_scriptsBelow (clean : Path.AreNames above) (distinct : (entries.map Prod.fst).Nodup)
    (each : ∀ entry ∈ entries, path ∈ f.scriptsAt entry.1 (Path.through (above ++ [entry.1])) entry.2 ↔
      ∃ names, entry.2.isFileAt names = true ∧ f.Finds above (entry.1 :: names) path) :
    path ∈ f.scriptsBelow (Path.through above) entries ↔
      ∃ names, (FileTree.directory entries).isFileAt names = true ∧ f.Finds above names path := by
  rw [scriptsBelow_through clean, List.mem_flatMap]
  constructor
  · rintro ⟨entry, member, listed⟩
    obtain ⟨names, file, finds⟩ := (each entry member).mp listed
    exact ⟨entry.1 :: names, (FileTree.isFileAt_directory distinct).mpr ⟨entry, member, names, rfl, file⟩, finds⟩
  · rintro ⟨names, file, finds⟩
    obtain ⟨entry, member, rest, rfl, below⟩ := (FileTree.isFileAt_directory distinct).mp file
    exact ⟨entry, member, (each entry member).mpr ⟨rest, below, finds⟩⟩

theorem mem_scriptsAt {node : FileTree} (clean : Path.AreNames (above ++ [name])) (proper : node.isProper = true) :
    path ∈ f.scriptsAt name (Path.through (above ++ [name])) node ↔
      ∃ names, node.isFileAt names = true ∧ f.Finds above (name :: names) path := by
  induction node generalizing above name with
  | file content | lockedFile =>
      rw [scriptsAt, List.mem_ite_nil_right, List.mem_singleton]
      constructor
      · rintro ⟨accepted, rfl⟩
        exact ⟨[], rfl, rfl, rfl, accepted⟩
      · rintro ⟨names, file, finds⟩
        cases names with
        | nil => exact ⟨finds.here ▸ finds.accepted, finds.here⟩
        | cons next rest => cases file
  | directory entries ih =>
      obtain ⟨distinct, each⟩ := FileTree.isProper_directory.mp proper
      -- A directory is no file itself, so its own name stands on the way to each of its files.
      have step : ∀ names, (FileTree.directory entries).isFileAt names = true → f.enters above (name :: names) =
          (!isHidden name && !f.skips (Path.through (above ++ [name])) && f.enters (above ++ [name]) names) := by
        intro names file
        refine enters_cons ?_ above name
        rintro rfl
        cases file
      rw [scriptsAt]
      split
      · rename_i closed
        refine ⟨nofun, ?_⟩
        rintro ⟨names, file, finds⟩
        have entered := finds.entered
        rw [step names file] at entered
        simp_all
      · rename_i passed
        simp only [Bool.or_eq_true, not_or, Bool.not_eq_true] at passed
        rw [mem_scriptsBelow clean distinct]
        · refine exists_congr fun names => and_congr_right fun file => ?_
          rw [finds_iff, finds_iff, step names file, passed.1, passed.2, List.append_assoc]
          rfl
        · intro entry member
          exact ih entry member (clean.extend (each entry member).1 nofun) (each entry member).2

theorem nodup_scriptsBelow (clean : Path.AreNames above) (proper : (FileTree.directory entries).isProper = true)
    (each : ∀ entry ∈ entries, (f.scriptsAt entry.1 (Path.through (above ++ [entry.1])) entry.2).Nodup) :
    (f.scriptsBelow (Path.through above) entries).Nodup := by
  obtain ⟨distinct, inner⟩ := FileTree.isProper_directory.mp proper
  have placed : ∀ entry ∈ entries, ∀ path ∈ f.scriptsAt entry.1 (Path.through (above ++ [entry.1])) entry.2,
      ∃ names, Path.AreNames (above ++ entry.1 :: names) ∧ path = Path.through (above ++ entry.1 :: names) := by
    intro entry member path listed
    obtain ⟨named, proper⟩ := inner entry member
    obtain ⟨names, file, finds⟩ := (mem_scriptsAt (clean.extend named nofun) proper).mp listed
    exact ⟨names, clean.extend named (FileTree.names_of_isFileAt proper file), finds.here⟩
  rw [scriptsBelow_through clean, List.nodup_flatMap]
  refine ⟨each, (List.pairwise_map.mp distinct).imp_of_mem ?_⟩
  intro a b first second different path here there
  obtain ⟨names, clean, rfl⟩ := placed a first path here
  obtain ⟨names', clean', same⟩ := placed b second _ there
  have entries := List.append_cancel_left (Path.through_inj clean clean' same)
  exact different (List.cons.inj entries).1

theorem nodup_scriptsAt {node : FileTree} (clean : Path.AreNames (above ++ [name])) (proper : node.isProper = true) :
    (f.scriptsAt name (Path.through (above ++ [name])) node).Nodup := by
  induction node generalizing above name with
  | file content | lockedFile =>
      rw [scriptsAt]
      split
      · exact List.nodup_singleton _
      · exact List.nodup_nil
  | directory entries ih =>
      rw [scriptsAt]
      split
      · exact List.nodup_nil
      · apply nodup_scriptsBelow clean proper
        intro entry member
        obtain ⟨named, inner⟩ := (FileTree.isProper_directory.mp proper).2 entry member
        exact ih entry member (clean.extend named nofun) inner

theorem enters_iff (above names : List Text) : f.enters above names = true ↔
    (∀ name ∈ names.dropLast, isHidden name = false) ∧
      ∀ n, n + 1 < names.length → f.skips (Path.through (above ++ names.take (n + 1))) = false := by
  fun_induction enters f above names with
  | case1 above name next rest ih =>
      rw [Bool.and_eq_true, Bool.and_eq_true, ih, Bool.not_eq_true', Bool.not_eq_true', List.dropLast_cons_cons,
        List.forall_mem_cons]
      constructor
      · rintro ⟨⟨shown, passed⟩, others, below⟩
        refine ⟨⟨shown, others⟩, fun n inside => ?_⟩
        cases n with
        | zero => exact passed
        | succ n => simpa using below n (by simpa using inside)
      · rintro ⟨⟨shown, others⟩, passed⟩
        refine ⟨⟨shown, passed 0 (by simp)⟩, others, fun n inside => ?_⟩
        simpa using passed (n + 1) (by simpa using inside)
  | case2 names above single =>
      rcases names with _ | ⟨name, _ | ⟨next, rest⟩⟩
      · simp
      · simp
      · exact absurd rfl (single name next rest)

/-! ### Plain filtering -/

theorem forall_ancestors (clean : Path.AreNames names) (some : names ≠ []) (holds : Text → Prop) :
    (∀ above ∈ FileTree.ancestors (Path.through names), holds above) ↔
      ∀ n, n + 1 < names.length → holds (Path.through (names.take (n + 1))) := by
  simp only [FileTree.ancestors, Path.names_through clean some, List.mem_filter, List.mem_map, List.mem_range]
  constructor
  · intro each n inside
    refine each _ ⟨⟨n + 1, inside, rfl⟩, ?_⟩
    have front : Path.AreNames (names.take (n + 1)) := fun name member => clean name (List.mem_of_mem_take member)
    simpa using Path.through_ne_nil front (by simpa using some)
  · rintro each above ⟨⟨n, inside, rfl⟩, shown⟩
    cases n with
    | zero => cases shown
    | succ n => exact each n inside

/-- Plain filtering: an accepted file outside hidden directories. -/
def keeps (f : PathFilter) (tree : FileTree) (path : Text) : Bool :=
  tree.isFileAt (Path.names path) && !(Path.names path).dropLast.any isHidden && f.accepts path

theorem mem_scripts (proper : (FileTree.directory entries).isProper = true) (path : Text) :
    path ∈ f.scripts (.directory entries) ↔
      f.keeps (.directory entries) path = true ∧ ∀ above ∈ FileTree.ancestors path, f.skips above = false := by
  obtain ⟨distinct, each⟩ := FileTree.isProper_directory.mp proper
  have clean : Path.AreNames [] := nofun
  have listed : path ∈ f.scripts (.directory entries) ↔
      ∃ names, (FileTree.directory entries).isFileAt names = true ∧ f.Finds [] names path :=
    (Text.sort_perm _).mem_iff.trans (mem_scriptsBelow clean distinct fun entry member =>
      mem_scriptsAt (clean.extend (each entry member).1 nofun) (each entry member).2)
  have ways : ∀ names, (FileTree.directory entries).isFileAt names = true → Path.AreNames names ∧ names ≠ [] := by
    intro names file
    refine ⟨FileTree.names_of_isFileAt proper file, ?_⟩
    rintro rfl
    cases file
  rw [listed, keeps, Bool.and_eq_true, Bool.and_eq_true]
  constructor
  · rintro ⟨names, file, rfl, entered, accepted⟩
    obtain ⟨clean, some⟩ := ways names file
    rw [enters_iff] at entered
    rw [List.nil_append, Path.names_through clean some, forall_ancestors clean some]
    exact ⟨⟨⟨file, by simpa using entered.1⟩, accepted⟩, entered.2⟩
  · rintro ⟨⟨⟨file, shown⟩, accepted⟩, passed⟩
    obtain ⟨clean, some⟩ := ways (Path.names path) file
    have whole : Path.through (Path.names path) = path := Text.join_splitAt path
    rw [← whole, forall_ancestors clean some] at passed
    exact ⟨Path.names path, file, whole.symm, (enters_iff _ _).mpr ⟨by simpa using shown, passed⟩, accepted⟩

theorem scripts_strict (proper : (FileTree.directory entries).isProper = true) :
    (f.scripts (.directory entries)).Pairwise (· < ·) := by
  have clean : Path.AreNames [] := nofun
  apply Text.sort_strict
  apply nodup_scriptsBelow clean proper
  intro entry member
  obtain ⟨named, inner⟩ := (FileTree.isProper_directory.mp proper).2 entry member
  exact nodup_scriptsAt (clean.extend named nofun) inner

theorem split_of_mem_ancestors {path above : Text} (member : above ∈ FileTree.ancestors path) :
    ∃ rest, path = above ++ Path.slash :: rest := by
  simp only [FileTree.ancestors, List.mem_filter, List.mem_map, List.mem_range] at member
  obtain ⟨⟨n, inside, rfl⟩, shown⟩ := member
  have front : (Path.names path).take n ≠ [] := by
    intro none
    rw [none] at shown
    cases shown
  have back : (Path.names path).drop n ≠ [] := List.ne_nil_of_length_pos (by rw [List.length_drop]; omega)
  refine ⟨Text.join [Path.slash] ((Path.names path).drop n), ?_⟩
  rw [← Text.join_append front back, List.take_append_drop]
  exact (Text.join_splitAt path).symm

theorem Covering.passes (covering : f.Covering) (accepted : f.accepts path = true) :
    ∀ above ∈ FileTree.ancestors path, f.skips above = false := by
  intro above member
  obtain ⟨rest, rfl⟩ := split_of_mem_ancestors member
  by_contra skipped
  have ignored := covering above rest (Bool.not_eq_false _ ▸ skipped)
  simp [accepts, ignored] at accepted

theorem discover_eq {tree node : FileTree} {root : Text} (found : tree.at? root = .ok node) :
    f.discover tree root = .ok (f.scripts node) := by
  rw [discover, FileTree.inspect, found]
  rfl

/-- The walk lists what plain filtering keeps, each path once and in ascending order, except below directories
that are ignored as a whole. Patterns for whole directories make no exception. -/
theorem discover_exact {globs : GlobLibrary} {included ignored : List Text} {tree : FileTree} {root : Text}
    (compiled : compile globs included ignored = .ok f) (found : tree.at? root = .ok (.directory entries))
    (proper : (FileTree.directory entries).isProper = true) :
    ∃ scripts, f.discover tree root = .ok scripts ∧ scripts.Pairwise (· < ·) ∧
      (∀ path, path ∈ scripts ↔
        f.keeps (.directory entries) path = true ∧ ∀ above ∈ FileTree.ancestors path, f.skips above = false) ∧
      (globs.ReadsDirectories → (∀ pattern ∈ ignored, Enclosing (Text.trim pattern)) →
        ∀ path, path ∈ scripts ↔ f.keeps (.directory entries) path = true) := by
  refine ⟨f.scripts (.directory entries), discover_eq found, scripts_strict proper, mem_scripts proper, ?_⟩
  intro reads enclosing path
  rw [mem_scripts proper, and_iff_left_iff_imp]
  intro kept
  rw [keeps, Bool.and_eq_true] at kept
  exact (covering_of_enclosing reads compiled enclosing).passes kept.2

def twoScripts (directory : Text) : FileTree :=
  .directory [("top.sql", .file "SELECT 1"), (directory, .directory [("old.sql", .file "SELECT 2")])]

theorem discover_exact_vendored : ∃ f scripts, compile Glob.library [] defaultIgnored = .ok f ∧
    f.discover (twoScripts "vendor") "/" = .ok scripts ∧ Text.ofString "top.sql" ∈ scripts ∧
      Text.ofString "vendor/old.sql" ∉ scripts := by
  have checked : (match compile Glob.library [] defaultIgnored with
    | .ok f => f.keeps (twoScripts "vendor") "top.sql" && !f.keeps (twoScripts "vendor") "vendor/old.sql"
    | .error _ => false) = true := by decide +kernel
  cases compiled : compile Glob.library [] defaultIgnored with
  | error e =>
      rw [compiled] at checked
      cases checked
  | ok f =>
      rw [compiled, Bool.and_eq_true, Bool.not_eq_true'] at checked
      obtain ⟨scripts, discovered, -, -, plain⟩ :=
        discover_exact compiled (show (twoScripts "vendor").at? "/" = _ from rfl) (by decide +kernel)
      have listed := plain Glob.library_readsDirectories defaultIgnored_enclosing
      refine ⟨f, scripts, rfl, discovered, (listed _).mpr checked.1, ?_⟩
      rw [listed, Bool.not_eq_true]
      exact checked.2

/-- A pattern that names a directory keeps the walk out of it, although it ignores no file in it. -/
theorem archive_not_entered : ∃ f scripts, compile Glob.library [] ["archive"] = .ok f ∧
    f.discover (twoScripts "archive") "/" = .ok scripts ∧
      f.keeps (twoScripts "archive") "archive/old.sql" = true ∧ Text.ofString "archive/old.sql" ∉ scripts := by
  have checked : (match compile Glob.library [] ["archive"] with
    | .ok f => f.keeps (twoScripts "archive") "archive/old.sql" && f.skips "archive"
    | .error _ => false) = true := by decide +kernel
  cases compiled : compile Glob.library [] ["archive"] with
  | error e =>
      rw [compiled] at checked
      cases checked
  | ok f =>
      rw [compiled, Bool.and_eq_true] at checked
      refine ⟨f, _, rfl, discover_eq (show (twoScripts "archive").at? "/" = _ from rfl), checked.1, fun listed => ?_⟩
      have passed := ((mem_scripts (by decide +kernel) _).mp listed).2 "archive" (by decide +kernel)
      rw [checked.2] at passed
      cases passed

end PathFilter

end ScriptAtlas
