import ScriptAtlas.Proofs.Decimals
import ScriptAtlas.Proofs.DependencyGraph
import ScriptAtlas.Proofs.SourceText
import ScriptAtlas.Proofs.TextOrder
import ScriptAtlas.Search.Request

/-!
The keys under which answers are remembered. A key holds the parts of a request between bars, and the query,
the table and the pattern of files are written as they are, so that a query or a pattern with a label in it
can take the place of other parts. Two requests with one key ask for the same exactly when their queries and
their patterns are equally long, and whenever neither query holds the label of the kinds and neither pattern
that of the files.
-/

namespace ScriptAtlas

namespace Text

def bar : UInt8 := 0x7C

section Pieces

variable {sep : UInt8} {a b s t : Text}

theorem append_sep_inj (first : sep ∉ a) (second : sep ∉ b) (same : a ++ sep :: s = b ++ sep :: t) :
    a = b ∧ s = t := by
  induction a generalizing b with
  | nil =>
      cases b with
      | nil => exact ⟨rfl, (List.cons.inj same).2⟩
      | cons c b => exact absurd ((List.cons.inj same).1 ▸ List.mem_cons_self) second
  | cons c a ih =>
      cases b with
      | nil => exact absurd ((List.cons.inj same).1 ▸ List.mem_cons_self) first
      | cons d b =>
          rw [List.mem_cons, not_or] at first second
          obtain ⟨rfl, rest⟩ := List.cons.inj same
          obtain ⟨pieces, tails⟩ := ih first.2 second.2 rest
          exact ⟨congrArg (c :: ·) pieces, tails⟩

theorem sep_append_inj (first : sep ∉ a) (second : sep ∉ b) (same : s ++ sep :: a = t ++ sep :: b) :
    s = t ∧ a = b := by
  have back := congrArg List.reverse same
  simp only [List.reverse_append, List.reverse_cons, List.append_assoc, List.singleton_append] at back
  obtain ⟨last, front⟩ := append_sep_inj (by simpa using first) (by simpa using second) back
  exact ⟨List.reverse_injective front, List.reverse_injective last⟩

/-- Two places of a label in one text are the same place or do not overlap, as its separator occurs in front
only. -/
theorem label_split {body u v w z : Text} (whole : sep ∉ body)
    (same : u ++ (sep :: body ++ v) = w ++ (sep :: body ++ z)) :
    u = w ∧ v = z ∨ (∃ m, w = u ++ (sep :: body ++ m) ∧ v = m ++ (sep :: body ++ z)) ∨
      ∃ m, u = w ++ (sep :: body ++ m) ∧ z = m ++ (sep :: body ++ v) := by
  -- What lies between the two places is nothing, or it begins with the whole label.
  have later : ∀ {m v z : Text}, sep :: body ++ v = m ++ (sep :: body ++ z) →
      m = [] ∧ v = z ∨ ∃ n, m = sep :: body ++ n ∧ v = n ++ (sep :: body ++ z) := by
    intro m v z same
    cases m with
    | nil => exact .inl ⟨rfl, List.append_cancel_left same⟩
    | cons c m =>
        obtain ⟨rfl, rest⟩ := List.cons.inj same
        rcases List.append_eq_append_iff.mp rest with ⟨n, longer, tails⟩ | ⟨n, shorter, tails⟩
        · exact .inr ⟨n, by rw [longer]; rfl, tails⟩
        · cases n with
          | nil => exact .inr ⟨[], by rw [shorter]; simp, tails.symm⟩
          | cons d n =>
              refine absurd ?_ whole
              rw [shorter, (List.cons.inj tails).1]
              exact List.mem_append_right _ List.mem_cons_self
  rcases List.append_eq_append_iff.mp same with ⟨m, rfl, rest⟩ | ⟨m, rfl, rest⟩
  · rcases later rest with ⟨rfl, rfl⟩ | ⟨n, rfl, rfl⟩
    · exact .inl ⟨(List.append_nil u).symm, rfl⟩
    · exact .inr (.inl ⟨n, rfl, rfl⟩)
  · rcases later rest with ⟨rfl, rfl⟩ | ⟨n, rfl, rfl⟩
    · exact .inl ⟨List.append_nil w, rfl⟩
    · exact .inr (.inr ⟨n, rfl, rfl⟩)

/-- A label that stands in front of the last separator stands in what is in front of it, unless the last part
begins with its body. -/
theorem label_in_front {body last m u : Text} (whole : sep ∉ body) (plain : sep ∉ last) (apart : ¬ body <+: last)
    (same : s ++ sep :: last = u ++ (sep :: body ++ m)) : sep :: body <:+: s := by
  -- The last separator is that of the label, or one behind it.
  by_cases more : sep ∈ m
  · obtain ⟨after, before, reversed, clear⟩ := List.eq_append_cons_of_mem (List.mem_reverse.mpr more)
    have parted : m = before.reverse ++ sep :: after.reverse := by
      simpa using congrArg List.reverse reversed
    have regrouped : s ++ sep :: last = (u ++ (sep :: body ++ before.reverse)) ++ sep :: after.reverse := by
      rw [same, parted]
      simp only [List.append_assoc, List.cons_append]
    obtain ⟨front, -⟩ := sep_append_inj plain (by simpa using clear) regrouped
    exact ⟨u, before.reverse, by rw [front, List.append_assoc]⟩
  · have absent : sep ∉ body ++ m := by simp [whole, more]
    exact absurd ⟨m, (sep_append_inj plain absent same).2.symm⟩ apart

end Pieces

theorem not_mem_join {sep b : UInt8} {pieces : List Text} (apart : b ≠ sep) (each : ∀ piece ∈ pieces, b ∉ piece) :
    b ∉ join [sep] pieces := by
  fun_induction join [sep] pieces with
  | case1 => exact List.not_mem_nil
  | case2 piece => exact each piece List.mem_cons_self
  | case3 piece rest notLast ih =>
      rw [List.forall_mem_cons] at each
      simp only [List.mem_append, List.mem_singleton, not_or]
      exact ⟨⟨each.1, apart⟩, ih each.2⟩

end Text

open Text (bar)

theorem ChunkKind.name_of_isKnown {name : Text} (known : (ofName name).isKnown = true) :
    name ≠ [] ∧ bar ∉ name ∧ 0x2C ∉ name := by
  have names : ∀ name ∈ taxonomy, name ≠ [] ∧ bar ∉ name ∧ 0x2C ∉ name := by decide
  refine names name ?_
  by_contra outside
  rw [ofName, dif_pos outside] at known
  simp [isKnown, priority] at known

namespace SearchRequest

variable {r r' a b : SearchRequest}

def filled (r : SearchRequest) : SearchRequest :=
  let limit := if r.limit ≤ 0 then defaultLimit else r.limit
  { r with
    limit := if maxLimit < limit then maxLimit else limit
    lifetime := if r.lifetime == 0 then defaultLifetime else r.lifetime }

theorem prepare_eq_ok : r.prepare = .ok a ↔ (Text.trim r.query).isEmpty = false ∧
    (∀ name ∈ r.kinds, (ChunkKind.ofName name).isKnown = true) ∧ 0 ≤ r.minComplexity ∧
      (r.minRelevance < 0.0 || 1.0 < r.minRelevance : Bool) = false ∧ r.filled = a := by
  rw [prepare, guarded, Bool.not_eq_true]
  refine and_congr_right fun _ => ?_
  cases found : r.kinds.find? fun name => !(ChunkKind.ofName name).isKnown with
  | some name =>
      have unknown : (ChunkKind.ofName name).isKnown = false := by simpa using List.find?_some found
      refine ⟨nofun, fun accepted => ?_⟩
      rw [accepted.1 name (List.mem_of_find?_eq_some found)] at unknown
      cases unknown
  | none =>
      have known : ∀ name ∈ r.kinds, (ChunkKind.ofName name).isKnown = true := by simpa using found
      refine Iff.trans ?_ (and_iff_right known).symm
      refine (guarded _ _).trans (and_congr Int.not_lt ?_)
      refine (guarded _ _).trans (and_congr (Bool.not_eq_true _).to_iff ?_)
      exact ⟨Except.ok.inj, congrArg Except.ok⟩

theorem kinds_of_prepare (accepted : r.prepare = .ok a) :
    ∀ name ∈ a.kinds, (ChunkKind.ofName name).isKnown = true := by
  obtain ⟨-, known, -, -, rfl⟩ := prepare_eq_ok.mp accepted
  exact known

/-- Two requests ask for the same: they agree on everything but the order of the kinds, the case of the
table, the least relevance and how answers are remembered. -/
structure Agrees (a b : SearchRequest) : Prop where
  project : a.project = b.project
  query : a.query = b.query
  limit : a.limit = b.limit
  kinds : a.kinds.Perm b.kinds
  table : a.table.lower = b.table.lower
  minComplexity : a.minComplexity = b.minComplexity
  files : a.files = b.files

/-! ### The parts of a key -/

def narrowing (r : SearchRequest) : Text :=
  (r.table.lower ++ bar :: (Text.ofString "complexity:" ++ Text.ofInt r.minComplexity)) ++
    (bar :: Text.ofString "files:" ++ r.files)

def afterLabel (r : SearchRequest) : Text :=
  Text.join [0x2C] (Text.sort r.kinds) ++ bar :: (Text.ofString "table:" ++
    (r.narrowing ++ bar :: (Text.ofString "relevance:" ++ Number.fixed 2 r.minRelevance)))

theorem key_eq (r : SearchRequest) : r.key = Text.ofInt r.project ++ bar ::
    ((r.query ++ bar :: Text.ofInt r.limit) ++ (bar :: Text.ofString "types:" ++ r.afterLabel)) := by
  have single : Text.ofString "|" = [bar] := rfl
  have comma : Text.ofString "," = [0x2C] := rfl
  have types : Text.ofString "|types:" = bar :: Text.ofString "types:" := rfl
  have table : Text.ofString "|table:" = bar :: Text.ofString "table:" := rfl
  have complexity : Text.ofString "|complexity:" = bar :: Text.ofString "complexity:" := rfl
  have files : Text.ofString "|files:" = bar :: Text.ofString "files:" := rfl
  have relevance : Text.ofString "|relevance:" = bar :: Text.ofString "relevance:" := rfl
  simp only [key, afterLabel, narrowing, single, comma, types, table, complexity, files, relevance,
    List.append_assoc, List.cons_append, List.nil_append]

theorem bar_not_mem_ofInt (n : Int) : bar ∉ Text.ofInt n := by
  intro member
  rcases Text.mem_ofInt member with digit | sign
  · exact absurd digit (by decide)
  · exact absurd sign (by decide)

theorem bar_not_mem_fixed (places : Nat) (x : Float) : bar ∉ Number.fixed places x := by
  intro member
  rcases Number.mem_fixed member with digit | mark
  · exact absurd digit (by decide)
  · exact absurd mark (by decide)

theorem project_of_key (same : a.key = b.key) : a.project = b.project ∧
    (a.query ++ bar :: Text.ofInt a.limit) ++ (bar :: Text.ofString "types:" ++ a.afterLabel) =
      (b.query ++ bar :: Text.ofInt b.limit) ++ (bar :: Text.ofString "types:" ++ b.afterLabel) := by
  rw [key_eq, key_eq] at same
  obtain ⟨project, rest⟩ := Text.append_sep_inj (bar_not_mem_ofInt _) (bar_not_mem_ofInt _) same
  exact ⟨Text.ofInt_injective project, rest⟩

theorem kinds_of_afterLabel (first : r.prepare = .ok a) (second : r'.prepare = .ok b)
    (same : a.afterLabel = b.afterLabel) : a.kinds.Perm b.kinds ∧ a.narrowing = b.narrowing ∧
      Number.fixed 2 a.minRelevance = Number.fixed 2 b.minRelevance := by
  have names : ∀ {r a : SearchRequest}, r.prepare = .ok a → ∀ name ∈ Text.sort a.kinds,
      name ≠ [] ∧ bar ∉ name ∧ 0x2C ∉ name := by
    intro r a accepted name member
    exact ChunkKind.name_of_isKnown (kinds_of_prepare accepted name ((Text.sort_perm _).mem_iff.mp member))
  have apart : ∀ {r a : SearchRequest}, r.prepare = .ok a → bar ∉ Text.join [0x2C] (Text.sort a.kinds) := by
    intro r a accepted
    exact Text.not_mem_join (by decide) fun name member => (names accepted name member).2.1
  have relevance : ∀ a : SearchRequest, bar ∉ Text.ofString "relevance:" ++ Number.fixed 2 a.minRelevance := by
    intro a
    rw [List.mem_append, not_or]
    exact ⟨by decide, bar_not_mem_fixed 2 _⟩
  -- The kinds end at the first bar. A table or a pattern may hold bars, but the relevance begins at the last one.
  obtain ⟨kinds, rest⟩ := Text.append_sep_inj (apart first) (apart second) same
  obtain ⟨narrowing, rest⟩ := Text.sep_append_inj (relevance a) (relevance b) (List.append_cancel_left rest)
  refine ⟨(Text.sort_eq_iff _ _).mp ?_, narrowing, List.append_cancel_left rest⟩
  exact Text.join_inj (fun name member => ⟨(names first name member).1, (names first name member).2.2⟩)
    (fun name member => ⟨(names second name member).1, (names second name member).2.2⟩) kinds

theorem table_of_narrowing (same : a.table.lower ++ bar :: (Text.ofString "complexity:" ++ Text.ofInt a.minComplexity) =
      b.table.lower ++ bar :: (Text.ofString "complexity:" ++ Text.ofInt b.minComplexity)) :
    a.table.lower = b.table.lower ∧ a.minComplexity = b.minComplexity := by
  have apart : ∀ n : Int, bar ∉ Text.ofString "complexity:" ++ Text.ofInt n := by
    intro n
    rw [List.mem_append, not_or]
    exact ⟨by decide, bar_not_mem_ofInt n⟩
  obtain ⟨table, complexity⟩ := Text.sep_append_inj (apart _) (apart _) same
  exact ⟨table, Text.ofInt_injective (List.append_cancel_left complexity)⟩

/-! ### Keys and requests -/

theorem afterLabel_of_key (same : a.key = b.key) (query : a.query = b.query) :
    a.limit = b.limit ∧ a.afterLabel = b.afterLabel := by
  obtain ⟨-, rest⟩ := project_of_key same
  rw [query, List.append_assoc, List.append_assoc] at rest
  have numbers := (List.cons.inj (List.append_cancel_left rest)).2
  obtain ⟨limit, labelled⟩ := Text.append_sep_inj (bar_not_mem_ofInt _) (bar_not_mem_ofInt _) numbers
  exact ⟨Text.ofInt_injective limit, List.append_cancel_left labelled⟩

theorem agrees_of_parts (first : r.prepare = .ok a) (second : r'.prepare = .ok b) (same : a.key = b.key)
    (query : a.query = b.query) (files : a.files = b.files) : a.Agrees b := by
  obtain ⟨limit, labelled⟩ := afterLabel_of_key same query
  obtain ⟨kinds, narrowed, -⟩ := kinds_of_afterLabel first second labelled
  rw [narrowing, narrowing, files] at narrowed
  obtain ⟨table, minComplexity⟩ := table_of_narrowing (List.append_cancel_right narrowed)
  exact { project := (project_of_key same).1, query, limit, kinds, table, minComplexity, files }

theorem agrees_of_lengths (first : r.prepare = .ok a) (second : r'.prepare = .ok b) (same : a.key = b.key)
    (queries : a.query.length = b.query.length) (patterns : a.files.length = b.files.length) : a.Agrees b := by
  have rest := (project_of_key same).2
  rw [List.append_assoc, List.append_assoc] at rest
  have query := (List.append_inj rest queries).1
  obtain ⟨-, narrowed, -⟩ := kinds_of_afterLabel first second (afterLabel_of_key same query).2
  have labelled := (List.append_inj' narrowed (by simp [patterns])).2
  exact agrees_of_parts first second same query (List.append_cancel_left labelled)

/-- The free texts of a request hold none of the labels that follow them in a key. -/
structure Unlabelled (r : SearchRequest) : Prop where
  query : ¬ Text.ofString "|types:" <:+: r.query
  files : ¬ Text.ofString "|files:" <:+: r.files

theorem label_in_query {u m : Text} (early : r.query ++ bar :: Text.ofInt r.limit =
    u ++ (bar :: Text.ofString "types:" ++ m)) : Text.ofString "|types:" <:+: r.query := by
  refine Text.label_in_front (by decide) (bar_not_mem_ofInt _) ?_ early
  -- The label of the kinds begins with a letter, and a limit holds none.
  rintro ⟨rest, whole⟩
  have letter : 0x74 ∈ Text.ofInt r.limit := whole ▸ List.mem_append_left rest (by decide)
  rcases Text.mem_ofInt letter with digit | sign
  · exact absurd digit (by decide)
  · exact absurd sign (by decide)

theorem agrees_of_unlabelled (first : r.prepare = .ok a) (second : r'.prepare = .ok b) (same : a.key = b.key)
    (clear : a.Unlabelled) (clear' : b.Unlabelled) : a.Agrees b := by
  have query : a.query = b.query := by
    rcases Text.label_split (by decide) (project_of_key same).2 with ⟨front, -⟩ | ⟨m, early, -⟩ | ⟨m, early, -⟩
    · exact (Text.sep_append_inj (bar_not_mem_ofInt _) (bar_not_mem_ofInt _) front).1
    · exact absurd (label_in_query early) clear'.query
    · exact absurd (label_in_query early) clear.query
  obtain ⟨-, narrowed, -⟩ := kinds_of_afterLabel first second (afterLabel_of_key same query).2
  have files : a.files = b.files := by
    rcases Text.label_split (by decide) narrowed with ⟨-, pattern⟩ | ⟨m, -, longer⟩ | ⟨m, -, longer⟩
    · exact pattern
    · exact absurd ⟨m, b.files, by rw [longer, List.append_assoc]; rfl⟩ clear.files
    · exact absurd ⟨m, a.files, by rw [longer, List.append_assoc]; rfl⟩ clear'.files
  exact agrees_of_parts first second same query files

theorem Agrees.key_eq_key (agree : a.Agrees b)
    (relevance : Number.fixed 2 a.minRelevance = Number.fixed 2 b.minRelevance) : a.key = b.key := by
  rw [key, key, agree.project, agree.query, agree.limit, (Text.sort_eq_iff _ _).mpr agree.kinds, agree.table,
    agree.minComplexity, agree.files, relevance]

/-- What one key says of two accepted requests: they ask for the same exactly when their queries and their
patterns of files are equally long. For requests whose free texts hold no label, one key means the same
request, up to the relevance in two places. -/
theorem key_agrees (first : r.prepare = .ok a) (second : r'.prepare = .ok b) :
    (a.key = b.key → (a.Agrees b ↔ a.query.length = b.query.length ∧ a.files.length = b.files.length)) ∧
      (a.Unlabelled → b.Unlabelled → (a.key = b.key ↔
        a.Agrees b ∧ Number.fixed 2 a.minRelevance = Number.fixed 2 b.minRelevance)) := by
  constructor
  · intro same
    constructor
    · intro agree
      exact ⟨congrArg List.length agree.query, congrArg List.length agree.files⟩
    · rintro ⟨queries, patterns⟩
      exact agrees_of_lengths first second same queries patterns
  · intro clear clear'
    constructor
    · intro same
      have agree := agrees_of_unlabelled first second same clear clear'
      have labelled := (afterLabel_of_key same agree.query).2
      exact ⟨agree, (kinds_of_afterLabel first second labelled).2.2⟩
    · rintro ⟨agree, relevance⟩
      exact agree.key_eq_key relevance

/-- The kinds of `one` and `other` stand in different orders, and their tables differ in case. -/
theorem key_agrees_spelled :
    let one : SearchRequest := { project := 1, query := "total", kinds := ["loop", "cursor"], table := "Orders" }
    let other : SearchRequest := { project := 1, query := "total", kinds := ["cursor", "loop"], table := "ORDERS" }
    one.prepare = .ok one.filled ∧ other.prepare = .ok other.filled ∧ one.filled.key = other.filled.key := by
  intro one other
  have first : one.prepare = .ok one.filled := by
    refine prepare_eq_ok.mpr ⟨?_, ?_, ?_, ?_, rfl⟩ <;> decide +kernel
  have second : other.prepare = .ok other.filled := by
    refine prepare_eq_ok.mpr ⟨?_, ?_, ?_, ?_, rfl⟩ <;> decide +kernel
  have clear : one.filled.Unlabelled := ⟨by decide +kernel, by decide +kernel⟩
  have clear' : other.filled.Unlabelled := ⟨by decide +kernel, by decide +kernel⟩
  have agree : one.filled.Agrees other.filled := by
    constructor <;> decide +kernel
  exact ⟨first, second, ((key_agrees first second).2 clear clear').mpr ⟨agree, rfl⟩⟩

/-- A pattern of files with labels in it passes for the end of a query, so that one key stands for two requests. -/
theorem forged_key :
    let labels : Text := "|10|types:|table:|complexity:0|files:"
    let asked : SearchRequest := { project := 1, query := "select " ++ labels, cached := true }
    let forged : SearchRequest := { project := 1, query := "select ", files := labels, cached := true }
    asked.prepare = .ok asked.filled ∧ forged.prepare = .ok forged.filled ∧ asked.filled.key = forged.filled.key ∧
      ¬ asked.filled.Agrees forged.filled := by
  intro labels asked forged
  refine ⟨prepare_eq_ok.mpr ⟨?_, ?_, ?_, ?_, rfl⟩, prepare_eq_ok.mpr ⟨?_, ?_, ?_, ?_, rfl⟩, ?_, ?_⟩
  case refine_10 => exact fun agree => absurd agree.query (by decide +kernel)
  all_goals decide +kernel

end SearchRequest

end ScriptAtlas
