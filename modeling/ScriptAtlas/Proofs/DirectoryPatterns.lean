import ScriptAtlas.Files.Discovery
import ScriptAtlas.Glob.Compile
import ScriptAtlas.Proofs.Characters

/-!
Patterns for whole directories: `name/**` for the directory of that name at the root, and `**/name/**` for
every directory of that name. A library that reads them as such accepts whatever continues a path that they
accept, so no file below a directory that they ignore escapes them.
-/

namespace ScriptAtlas

theorem Text.contains_iff (t needle : Text) : t.contains needle = true ↔ needle <:+: t := by
  rw [contains]
  fun_induction cut needle t with
  | case1 empty => simpa using empty
  | case2 some =>
      rw [List.infix_nil]
      simpa using some
  | case3 b rest here =>
      simpa using (List.isPrefixOf_iff_prefix.mp here).isInfix
  | case4 b rest later ih =>
      rw [List.isPrefixOf_iff_prefix] at later
      rw [Option.isSome_map, ih, List.infix_cons_iff, or_iff_right later]

theorem Text.chars_ofChars_append (cs : List Char) (rest : Text) : chars (ofChars cs ++ rest) = cs ++ chars rest := by
  rw [chars, glyphs_ofChars_append, List.map_append, List.map_map]
  exact congrArg (· ++ _) (List.map_id cs)

namespace GlobLibrary

/-- A character that stands for itself wherever it stands in a pattern. -/
def isPlain (c : Char) : Bool :=
  !List.elem c ['?', '*', '[', '{', '}', '\\', '\uFFFD', '\x00']

/-- A library in which plain characters match themselves and `**` matches any text. -/
structure ReadsDirectories (globs : GlobLibrary) : Prop where
  front : ∀ name : List Char, name.all isPlain = true →
    ∃ test, globs (Text.ofChars name ++ "/**") = .ok test ∧
      ∀ path, test path = path.startsWith (Text.ofChars name ++ "/")
  anywhere : ∀ name : List Char, name.all isPlain = true →
    ∃ test, globs ("**/" ++ (Text.ofChars name ++ "/**")) = .ok test ∧
      ∀ path, test path = path.contains ("/" ++ (Text.ofChars name ++ "/"))

/-- Whatever continues an accepted path is accepted. -/
def Growing (test : Text → Bool) : Prop :=
  ∀ path more, test path = true → test (path ++ more) = true

theorem growing_startsWith {test : Text → Bool} {t : Text} (same : ∀ path, test path = path.startsWith t) :
    Growing test := by
  intro path more accepted
  rw [same, Text.startsWith, List.isPrefixOf_iff_prefix] at accepted ⊢
  exact accepted.trans (List.prefix_append path more)

theorem growing_contains {test : Text → Bool} {t : Text} (same : ∀ path, test path = path.contains t) :
    Growing test := by
  intro path more accepted
  rw [same, Text.contains_iff] at accepted ⊢
  exact accepted.trans (List.prefix_append path more).isInfix

end GlobLibrary

namespace PathFilter

/-- A pattern for everything in a directory, at the root or anywhere; a blank one stands for nothing. -/
inductive Enclosing : Text → Prop
  | blank : Enclosing []
  | front {name : List Char} : name.all GlobLibrary.isPlain = true → Enclosing (Text.ofChars name ++ "/**")
  | anywhere {name : List Char} : name.all GlobLibrary.isPlain = true →
      Enclosing ("**/" ++ (Text.ofChars name ++ "/**"))

def Grows (globs : GlobLibrary) (pattern : Text) : Prop :=
  ∃ test, globs pattern = .ok test ∧ GlobLibrary.Growing test

variable {globs : GlobLibrary}

theorem grows_front (reads : globs.ReadsDirectories) {name : List Char}
    (plain : name.all GlobLibrary.isPlain = true) : Grows globs (Text.ofChars name ++ "/**") := by
  obtain ⟨test, compiled, same⟩ := reads.front name plain
  exact ⟨test, compiled, GlobLibrary.growing_startsWith same⟩

theorem grows_anywhere (reads : globs.ReadsDirectories) {name : List Char}
    (plain : name.all GlobLibrary.isPlain = true) : Grows globs ("**/" ++ (Text.ofChars name ++ "/**")) := by
  obtain ⟨test, compiled, same⟩ := reads.anywhere name plain
  exact ⟨test, compiled, GlobLibrary.growing_contains same⟩

theorem variants_front {name : List Char} (plain : name.all GlobLibrary.isPlain = true) :
    variants (Text.ofChars name ++ "/**") = [Text.ofChars name ++ "/**"] := by
  -- A plain name does not begin with a star.
  refine if_neg fun star => ?_
  obtain ⟨rest, whole⟩ := List.isPrefixOf_iff_prefix.mp star
  have read : '*' :: '*' :: '/' :: Text.chars rest = name ++ ['/', '*', '*'] := by
    have both := congrArg Text.chars whole
    rwa [show Text.ofString "**/" = Text.ofChars ['*', '*', '/'] from rfl, Text.chars_ofChars_append,
      Text.chars_ofChars_append] at both
  cases name with
  | nil => cases read
  | cons c cs =>
      obtain ⟨rfl, -⟩ := List.cons.inj read
      cases plain

theorem variants_grow (reads : globs.ReadsDirectories) {pattern : Text} (enclosing : Enclosing pattern)
    (some : pattern ≠ []) : ∀ variant ∈ variants pattern, Grows globs variant := by
  cases enclosing with
  | blank => exact absurd rfl some
  | front plain =>
      rw [variants_front plain, List.forall_mem_singleton]
      exact grows_front reads plain
  | @anywhere name plain =>
      have both : variants ("**/" ++ (Text.ofChars name ++ "/**")) =
        ["**/" ++ (Text.ofChars name ++ "/**"), Text.ofChars name ++ "/**"] := rfl
      rw [both, List.forall_mem_cons, List.forall_mem_singleton]
      exact ⟨grows_anywhere reads plain, grows_front reads plain⟩

theorem mapM_all {α β ε : Type} {f : α → Except ε β} {holds : β → Prop} {items : List α}
    (each : ∀ a ∈ items, ∃ b, f a = .ok b ∧ holds b) : ∃ bs, items.mapM f = .ok bs ∧ ∀ b ∈ bs, holds b := by
  induction items with
  | nil => exact ⟨[], rfl, nofun⟩
  | cons a items ih =>
      rw [List.forall_mem_cons] at each
      obtain ⟨⟨b, first, here⟩, each⟩ := each
      obtain ⟨bs, rest, later⟩ := ih each
      refine ⟨b :: bs, ?_, List.forall_mem_cons.mpr ⟨here, later⟩⟩
      rw [List.mapM_cons, first, rest]
      rfl

theorem compilePatterns_growing (reads : globs.ReadsDirectories) {patterns : List Text}
    (enclosing : ∀ pattern ∈ patterns, Enclosing (Text.trim pattern)) :
    ∃ tests, compilePatterns globs patterns = .ok tests ∧ ∀ test ∈ tests, GlobLibrary.Growing test := by
  have each : ∀ pattern ∈ patterns,
      ∃ tests, compilePattern globs pattern = .ok tests ∧ ∀ test ∈ tests, GlobLibrary.Growing test := by
    intro pattern member
    rw [compilePattern]
    by_cases none : Text.trim pattern = []
    · exact ⟨[], by rw [none]; rfl, nofun⟩
    · have compiled := variants_grow reads (enclosing pattern member) none
      simp only [List.isEmpty_iff, none, if_false]
      refine mapM_all fun variant here => ?_
      obtain ⟨test, read, grows⟩ := compiled variant here
      exact ⟨test, by rw [read], grows⟩
  obtain ⟨lists, compiled, grow⟩ := mapM_all each
  refine ⟨lists.flatten, by rw [compilePatterns, compiled]; rfl, ?_⟩
  intro test member
  obtain ⟨tests, here, member⟩ := List.mem_flatten.mp member
  exact grow tests here test member

/-- Whatever lies below a directory that is skipped is ignored. -/
def Covering (f : PathFilter) : Prop :=
  ∀ directory rest, f.skips directory = true → f.ignored.any (· (directory ++ Path.slash :: rest)) = true

theorem covering_of_enclosing (reads : globs.ReadsDirectories) {f : PathFilter} {included ignored : List Text}
    (compiled : compile globs included ignored = .ok f)
    (enclosing : ∀ pattern ∈ ignored, Enclosing (Text.trim pattern)) : f.Covering := by
  obtain ⟨tests, read, grow⟩ := compilePatterns_growing reads enclosing
  have ignores : f.ignored = tests := by
    rw [compile, read] at compiled
    cases others : compilePatterns globs (if included.isEmpty then defaultIncluded else included) with
    | error e =>
        rw [others] at compiled
        cases compiled
    | ok kept =>
        rw [others] at compiled
        cases compiled
        rfl
  intro directory rest skipped
  simp only [skips, Bool.or_eq_true, List.any_eq_true, ignores] at skipped ⊢
  rcases skipped with ⟨test, member, accepted⟩ | ⟨test, member, accepted⟩
  · exact ⟨test, member, grow test member directory (Path.slash :: rest) accepted⟩
  · have further := grow test member (directory ++ [Path.slash]) rest accepted
    rw [List.append_assoc] at further
    exact ⟨test, member, further⟩

theorem defaultIgnored_enclosing : ∀ pattern ∈ defaultIgnored, Enclosing (Text.trim pattern) := by
  have written : defaultIgnored.map Text.trim = ["node_modules", "vendor", "bin"].map fun name =>
      Text.ofString "**/" ++ (Text.ofChars name.toList ++ Text.ofString "/**") := by decide +kernel
  have plain : ∀ name ∈ ["node_modules", "vendor", "bin"], name.toList.all GlobLibrary.isPlain = true := by
    decide +kernel
  intro pattern member
  have trimmed := List.mem_map_of_mem (f := Text.trim) member
  rw [written] at trimmed
  obtain ⟨name, listed, same⟩ := List.mem_map.mp trimmed
  rw [← same]
  exact .anywhere (plain name listed)

end PathFilter

/-! ### The library that the program runs -/

namespace GlobNode

open GlobLibrary (isPlain)

theorem isPlain_iff (c : Char) : isPlain c = true ↔
    c ≠ '?' ∧ c ≠ '*' ∧ c ≠ '[' ∧ c ≠ '{' ∧ c ≠ '}' ∧ c ≠ '\\' ∧ isUnreadable c = false ∧ c ≠ '\x00' := by
  simp [isPlain, isUnreadable]

variable {cs : List Char}

theorem readLiteral_plain (plain : cs.all isPlain = true) (rest : List Char) :
    readLiteral ['?', '*', '[', '{'] (cs ++ '*' :: rest) = (cs, '*' :: rest) := by
  induction cs with
  | nil => rfl
  | cons c cs ih =>
      rw [List.all_cons, Bool.and_eq_true, isPlain_iff] at plain
      obtain ⟨⟨question, star, bracket, brace, -, backslash, readable, -⟩, plain⟩ := plain
      rw [List.cons_append, readLiteral, ih plain]
      · simp [question, star, bracket, brace, readable]
      · exact fun here => backslash here

theorem readParts_plain (some : cs ≠ []) (plain : cs.all isPlain = true) (steps : Nat) (parts : List GlobNode)
    (rest : List Char) : readParts (steps + 1) [] parts (cs ++ '*' :: rest) =
      readParts steps [] (.literal (Text.ofChars cs) :: parts) ('*' :: rest) := by
  obtain ⟨c, cs, rfl⟩ := List.exists_cons_of_ne_nil some
  have literal := readLiteral_plain plain rest
  rw [List.all_cons, Bool.and_eq_true, isPlain_iff] at plain
  obtain ⟨question, star, bracket, brace, -, -, readable, -⟩ := plain.1
  rw [List.cons_append] at literal ⊢
  rw [readParts]
  · simp [readable, literal]
  · exact brace
  · exact bracket
  · exact question
  · exact star
  · exact fun frame outer _ => nofun
  · exact fun frame outer _ => nofun

theorem parse_front (plain : cs.all isPlain = true) :
    parse (Text.ofChars cs ++ "/**") = .ok (.seq [.literal (Text.ofChars (cs ++ ['/'])), .deep]) := by
  have slash : (cs ++ ['/']).all isPlain = true := by
    rw [List.all_append, plain]
    rfl
  have written : Text.ofChars cs ++ Text.ofString "/**" = Text.ofChars ((cs ++ ['/']) ++ '*' :: ['*']) := by
    rw [Text.ofChars_append, Text.ofChars_append, List.append_assoc]
    rfl
  rw [written, parse, Text.chars_ofChars, readParts_plain (by simp) slash]
  simp [readParts]

theorem parse_around (plain : cs.all isPlain = true) : parse ("**/" ++ (Text.ofChars cs ++ "/**")) =
    .ok (.seq [.deep, .literal (Text.ofChars ('/' :: cs ++ ['/'])), .deep]) := by
  have slashes : ('/' :: cs ++ ['/']).all isPlain = true := by
    rw [List.cons_append, List.all_cons, List.all_append, plain]
    rfl
  have written : Text.ofString "**/" ++ (Text.ofChars cs ++ Text.ofString "/**") =
      Text.ofChars ('*' :: '*' :: ('/' :: cs ++ ['/'] ++ '*' :: ['*'])) := by
    change _ = Text.ofString "**/" ++ Text.ofChars (cs ++ ['/'] ++ '*' :: ['*'])
    rw [Text.ofChars_append, Text.ofChars_append, List.append_assoc]
    rfl
  rw [written, parse, Text.chars_ofChars]
  change readParts (_ + 1) [] [.deep] ('/' :: cs ++ ['/'] ++ '*' :: ['*']) = _
  rw [readParts_plain (by simp) slashes]
  simp [readParts]

end GlobNode

theorem Glob.library_readsDirectories : GlobLibrary.ReadsDirectories library where
  front := by
    intro name plain
    refine ⟨accepts ⟨.front (Text.ofChars (name ++ ['/']))⟩, ?_, ?_⟩
    · rw [library, compile, GlobNode.parse_front plain]
      rfl
    · intro path
      rw [accepts, Matcher.accepts, Text.ofChars_append]
      rfl
  anywhere := by
    intro name plain
    refine ⟨accepts ⟨.contains (Text.ofChars ('/' :: name ++ ['/']))⟩, ?_, ?_⟩
    · rw [library, compile, GlobNode.parse_around plain]
      rfl
    · intro path
      rw [accepts, Matcher.accepts, Text.ofChars_append]
      rfl

end ScriptAtlas
