import ScriptAtlas.Guide.Markdown
import ScriptAtlas.Proofs.GuideLines
import ScriptAtlas.Proofs.ReadingOrder

/-!
The ranges of a rendered guide. The reading order announces the range of each chunk once, and nothing
else that the guide says of its own announces one; but the text of the script stands in the guide as it
is, and a line of it that looks like a fence opens it to the reader.
-/

namespace ScriptAtlas.Guide

/-! ### Labelled lines -/

theorem labelled_silent {label : String} {value : Text} (leads : Leads (Text.ofString label))
    (clear : Clear value) : Silent (labelled label value) :=
  silent_line (leads.clear_append clear)

theorem labelled_newline (label : String) (value : Text) :
    labelled label (value ++ "\n") = labelled label value ++ Text.ofString "\n" := by
  simp [labelled]

theorem newline_silent : Silent (Text.ofString "\n") :=
  silent_lines (by decide) (by decide)

theorem labelledList_silent {α : Type} {label : String} {items : List α} {shown : List α → Text}
    (leads : Leads (Text.ofString label)) (clear : Clear (shown items)) :
    Silent (labelledList label items shown) := by
  rw [labelledList]
  split
  · exact Silent.nil
  · exact labelled_silent leads clear

theorem provided_silent {condition : Bool} {t : Text} (silent : Silent t) : Silent (provided condition t) := by
  rw [provided]
  split
  · exact silent
  · exact Silent.nil

def fixedLines : List String := [
  "# Adaptive SQL Script Analysis Guide\n\n",
  "## Script Statistics\n",
  "**Business Functions:**\n",
  "**Chunk Type Distribution:**\n",
  "## Sequential Analysis Order\nAnalyze chunks in this order:\n\n",
  "## Detailed Sequential Analysis\n\n",
  "\n**Code:**\n",
  "**Analysis Questions:**\n",
  "\n---\n\n"]

theorem fixedLines_silent {lines : String} (listed : lines ∈ fixedLines) :
    Silent (Text.ofString lines) := by
  have each : ∀ lines ∈ fixedLines, (Text.ofString lines).getLast? = some 0x0A ∧
      ∀ line ∈ Text.splitAt 0x0A (Text.ofString lines), Clear line := by
    decide +kernel
  exact silent_lines (each lines listed).1 (each lines listed).2

/-! ### Values -/

theorem ofNat_clear (n : Nat) : Clear (Text.ofNat n) :=
  (tame_prose.ofNat n).clear

theorem ofInt_clear (n : Int) : Clear (Text.ofInt n) :=
  (tame_prose.ofInt n).clear

theorem words_tame {t : Text} (bytes : t.all isProseByte = true) : Tame t :=
  tame_prose.words bytes

theorem joinIds_clear (ids : List Int) : Clear (joinIds ids) := by
  refine Clear.join fun item member => ?_
  obtain ⟨n, _, rfl⟩ := List.mem_map.mp member
  exact ofInt_clear n

theorem joinFunctions_clear {functions : List Text}
    (known : ∀ f ∈ functions, f ∈ Vocabulary.businessFunctions.map Prod.fst) :
    Clear (joinFunctions functions) := by
  refine Clear.join fun item member => ?_
  obtain ⟨f, listed, rfl⟩ := List.mem_map.mp member
  exact (Chunk.humanize_holds tame_prose (known f listed)).1.clear

theorem kindName_tame {kind : ChunkKind} (known : kind.isKnown = true) : Tame kind.name := by
  have each : ∀ kind ∈ ChunkKind.priority, kind.name.all isProseByte = true := by decide
  exact words_tame (each kind (List.elem_iff.mp known))

theorem fixed_tame (places : Nat) (x : Float) : Tame (Number.fixed places x) := by
  have marks : (Text.ofString "+-.INafn").all isProseByte = true := by decide
  refine words_tame (List.all_eq_true.mpr fun b member => ?_)
  rcases Number.mem_fixed member with digit | mark
  · exact isProseByte_of_digit b digit
  · exact List.all_eq_true.mp marks b mark

/-! ### Header and statistics -/

theorem header_silent {z : Sizing} (known : z.strategy.name ∈ Text.ofStrings
    ["strict_logical", "size_constrained", "hybrid"]) : Silent (header z) := by
  have names : ∀ name ∈ Text.ofStrings ["strict_logical", "size_constrained", "hybrid"],
      (humanize name).all isProseByte = true := by
    decide +kernel
  have lines : ∀ n : Int, Clear (Text.ofInt n ++ Text.ofString " lines") := fun n =>
    (tame_prose.append (tame_prose.ofInt n) (words_tame (by decide))).clear
  have last : Text.ofInt z.max ++ Text.ofString " lines\n" =
      (Text.ofInt z.max ++ Text.ofString " lines") ++ Text.ofString "\n" := by
    rw [List.append_assoc]
    rfl
  rw [header, last, labelled_newline]
  refine .append (.append (.append ?_ ?_) ?_) (.append ?_ newline_silent)
  · exact fixedLines_silent (by simp [fixedLines])
  · exact labelled_silent (by decide) (words_tame (names _ known)).clear
  · exact labelled_silent (by decide) (lines z.target)
  · exact labelled_silent (by decide) (lines z.max)

theorem mem_of_mem_distinct {ts : List Text} {t : Text} (member : t ∈ distinct ts) : t ∈ ts :=
  List.mem_eraseDups.mp ((List.mergeSort_perm ts.eraseDups _).mem_iff.mp member)

theorem statistics_silent {chunks : List Chunk}
    (known : ∀ c ∈ chunks, ∀ f ∈ c.business, f ∈ Vocabulary.businessFunctions.map Prod.fst) :
    Silent (statistics chunks) := by
  have average : ∀ total, Clear (average total chunks.length) := by
    intro total
    rw [Guide.average]
    split
    · decide
    · exact (fixed_tame 1 _).clear
  have functions : ∀ f ∈ distinct (chunks.flatMap Chunk.business), Silent (labelled "- " (humanize f)) := by
    intro f member
    obtain ⟨c, inside, here⟩ := List.mem_flatMap.mp (mem_of_mem_distinct member)
    exact labelled_silent (by decide)
      (Chunk.humanize_holds tame_prose (known c inside f here)).1.clear
  have kinds : ∀ kind ∈ ChunkKind.priority, Leads (humanize kind.name ++ Text.ofString ": ") := by
    decide +kernel
  rw [statistics]
  dsimp only
  rw [labelled_newline]
  refine .append (.append (.append (.append (.append (.append (.append (.append (.append ?_ ?_) ?_) ?_) ?_)
    (.append ?_ newline_silent)) (provided_silent (.append (.append ?_ (.flatMap functions))
    newline_silent))) ?_) (.flatMap ?_)) newline_silent
  · exact fixedLines_silent (by simp [fixedLines])
  · exact labelled_silent (by decide) (ofNat_clear _)
  · exact labelled_silent (by decide) (ofNat_clear _)
  · exact labelled_silent (by decide) (ofInt_clear _)
  · exact labelled_silent (by decide) (average _)
  · exact labelled_silent (by decide) (ofNat_clear _)
  · exact fixedLines_silent (by simp [fixedLines])
  · exact fixedLines_silent (by simp [fixedLines])
  · intro kind listed
    exact provided_silent (labelled_silent (by decide)
      ((kinds kind listed).clear_append (ofNat_clear _)))

/-! ### The reading order -/

/-- What the guide relies on about a chunk. -/
structure Presentable (c : Chunk) : Prop where
  told : c.Told Tame
  operations : ∀ tag ∈ c.operations, Clear tag
  start : ∃ n : Nat, c.start = n ∧ (n : Int) ≤ maxInt64
  stop : ∃ n : Nat, c.stop = n ∧ (n : Int) ≤ maxInt64

theorem range_shows {a b : Nat} (first : (a : Int) ≤ maxInt64) (last : (b : Int) ≤ maxInt64) :
    Shows (labelled "   - Lines: " (Text.ofInt a ++ "-" ++ Text.ofInt b)) [⟨a, b⟩] := by
  have tame : Tame (Text.ofNat a ++ Text.ofString "-" ++ Text.ofNat b) :=
    tame_prose.append (tame_prose.append (tame_prose.ofNat a) (words_tame (by decide)))
      (tame_prose.ofNat b)
  have bytes : ∀ x ∈ Text.ofString "   - Lines: " ++ (Text.ofNat a ++ Text.ofString "-" ++ Text.ofNat b),
      x ≠ 0x60 ∧ x ≠ 0x0A :=
    List.forall_mem_append.mpr ⟨by decide +kernel, fun x member => (tame x member).2⟩
  have whole : (0x0A : UInt8) ∉
      Text.ofString "   - Lines: " ++ (Text.ofNat a ++ Text.ofString "-" ++ Text.ofNat b) :=
    fun member => (bytes _ member).2 rfl
  have plain := isFence_of_not_mem fun member => (bytes _ member).1 rfl
  have ranges := rangesOnLine_entry first last
  intro rest
  rw [labelled, List.append_assoc, Text.ofInt_natCast, Text.ofInt_natCast]
  refine (found_append false _ rest).trans ?_
  rw [found, Text.splitAt_of_not_mem _ whole]
  simp only [rangesFrom, fencedAfter, List.foldl_cons, List.foldl_nil, plain, ranges, if_false,
    Bool.false_eq_true, List.append_nil]

theorem number_apart {b : UInt8} (digit : Text.isDigit b = true ∨ b = 0x2D) :
    b ≠ 0x4C ∧ b ≠ 0x60 ∧ b ≠ 0x0A := by
  simp only [Text.isDigit, Bool.and_eq_true, decide_eq_true_eq, ne_eq, ← UInt8.toNat_inj,
    UInt8.le_iff_toNat_le, UInt8.reduceToNat] at digit ⊢
  omega

theorem heading_leads {before after : Text} (n : Int)
    (front : ∀ b ∈ before, b ≠ 0x4C ∧ b ≠ 0x60 ∧ b ≠ 0x0A)
    (back : ∀ b ∈ after, b ≠ 0x4C ∧ b ≠ 0x60 ∧ b ≠ 0x0A) (blank : after.getLast? = some 0x20) :
    Leads (before ++ Text.ofInt n ++ after) := by
  have each : ∀ b ∈ before ++ Text.ofInt n ++ after, b ≠ 0x4C ∧ b ≠ 0x60 ∧ b ≠ 0x0A := by
    rw [List.forall_mem_append, List.forall_mem_append]
    exact ⟨⟨front, fun b member => number_apart (Text.mem_ofInt member)⟩, back⟩
  refine ⟨clear_of_absent (b := 0x4C) (by decide) (fun member => (each _ member).1 rfl)
    (fun member => (each _ member).2.1 rfl) fun member => (each _ member).2.2 rfl, ?_⟩
  obtain ⟨rest, rfl⟩ := List.getLast?_eq_some_iff.mp blank
  rw [← List.append_assoc]
  exact List.getLast?_concat

def headingMarks : List String := [". **Chunk ", "**: ", "### Chunk ", ": "]

theorem headingMarks_apart : ∀ marks ∈ headingMarks, ∀ b ∈ Text.ofString marks,
    b ≠ 0x4C ∧ b ≠ 0x60 ∧ b ≠ 0x0A := by
  decide +kernel

theorem title_tame {c : Chunk} (told : c.Told Tame) : Tame c.title :=
  told.title ▸ Chunk.titleOf_holds tame_prose told

theorem summary_tame {c : Chunk} (told : c.Told Tame) : Tame c.summary :=
  told.summary ▸ Chunk.summaryOf_holds tame_prose told

theorem partLine_silent {c : Chunk} (told : c.Told Tame) : Silent (match c.part with
    | some p => labelled "   - Subdivision: Part "
        (Text.ofInt p.ordinal ++ "/" ++ Text.ofInt p.total ++ " of " ++ p.parentKind.name)
    | none => []) := by
  split
  · rename_i p here
    refine labelled_silent (by decide) (Tame.clear ?_)
    exact tame_prose.append (tame_prose.append (tame_prose.append (tame_prose.append
      (tame_prose.ofInt _) (words_tame (by decide))) (tame_prose.ofInt _))
      (words_tame (by decide))) (kindName_tame (told.parts p here).1)
  · exact Silent.nil

theorem orderEntry_shows (graph : Option DependencyGraph) (position : Nat) {c : Chunk}
    (shown : Presentable c) : Shows (orderEntry graph position c) [⟨c.start, c.stop⟩] := by
  obtain ⟨told, -, ⟨a, start, first⟩, ⟨b, stop, last⟩⟩ := shown
  have heading : Leads (Text.ofNat position ++ Text.ofString ". **Chunk " ++ Text.ofInt c.id ++
      Text.ofString "**: ") := by
    refine heading_leads c.id ?_ (headingMarks_apart _ (by simp [headingMarks])) (by decide)
    rw [List.forall_mem_append]
    exact ⟨fun b member => number_apart (.inl (Text.isDigit_of_mem_ofNat member)),
      headingMarks_apart _ (by simp [headingMarks])⟩
  have title := silent_line (heading.clear_append (title_tame told).clear)
  have kind : Silent (labelled "   - Type: " c.kind.name) :=
    labelled_silent (by decide) (kindName_tame told.kind).clear
  have weight : Silent (labelled "   - Complexity: " (Text.ofInt c.complexity)) :=
    labelled_silent (by decide) (ofInt_clear _)
  have context : Silent (labelled "   - Context: " c.summary) :=
    labelled_silent (by decide) (summary_tame told).clear
  have needs : Silent (labelledList "   - Dependencies: Chunks " c.dependencies joinIds) :=
    labelledList_silent (by decide) (joinIds_clear _)
  have neededBy : ∀ ids, Silent (labelledList "   - Needed By: Chunks " ids joinIds) :=
    fun ids => labelledList_silent (by decide) (joinIds_clear ids)
  have business : Silent (labelledList "   - Business Functions: " c.business joinFunctions) :=
    labelledList_silent (by decide) (joinFunctions_clear told.names.business)
  rw [orderEntry, start, stop]
  exact ((((((((title.shows.append kind.shows).append weight.shows).append (range_shows first last)).append
    context.shows).append needs.shows).append (neededBy _).shows).append business.shows).append
    (partLine_silent told).shows).append newline_silent.shows

theorem orderEntries_shows (graph : Option DependencyGraph) (position : Nat) {chunks : List Chunk}
    (shown : ∀ c ∈ chunks, Presentable c) :
    Shows (orderEntries graph position chunks) (Chunk.ranges chunks) := by
  induction chunks generalizing position with
  | nil => exact Silent.nil.shows
  | cons c rest ih =>
      rw [List.forall_mem_cons] at shown
      exact (orderEntry_shows graph position shown.1).append (ih (position + 1) shown.2)

/-! ### Sections -/

theorem numbered_silent (n : Nat) {items : List Text} (tame : ∀ item ∈ items, Tame item) :
    Silent (numbered n items) := by
  induction items generalizing n with
  | nil => exact Silent.nil
  | cons item rest ih =>
      rw [List.forall_mem_cons] at tame
      refine .append (silent_line (Tame.clear ?_)) (ih (n + 1) tame.2)
      exact tame_prose.append (tame_prose.append (tame_prose.ofNat n) (words_tame (by decide))) tame.1

theorem found_fence {line : Text} (fence : isFence line = true) (whole : 0x0A ∉ line) (fenced : Bool)
    (rest : Text) : found fenced (line ++ 0x0A :: rest) = found (!fenced) rest := by
  rw [found_append, found, Text.splitAt_of_not_mem line whole]
  simp [rangesFrom, fencedAfter, fence]

theorem found_code (content : Text) {before after : Text} (quiet : Silent before) (silent : Silent after)
    (inside : Bool) (rest : Text) :
    found (!inside) (before ++ Text.ofString "\n**Code:**\n```sql\n" ++ content ++
        Text.ofString "\n```\n\n" ++ after ++ rest) =
      rangesFrom inside (Text.splitAt 0x0A content) ++
        found (!(fencedAfter inside (Text.splitAt 0x0A content))) rest := by
  have opening : ∀ more, found (!inside) (Text.ofString "\n**Code:**\n```sql\n" ++ more) =
      found inside more := by
    intro more
    have label : Silent (Text.ofString "\n**Code:**\n") := fixedLines_silent (by simp [fixedLines])
    refine (label (!inside) (Text.ofString "```sql" ++ 0x0A :: more)).trans ?_
    rw [found_fence (by decide) (by decide), Bool.not_not]
  have closing : ∀ fenced more, found fenced (Text.ofString "```" ++ 0x0A :: 0x0A :: more) =
      found (!fenced) more := by
    intro fenced more
    rw [found_fence (by decide) (by decide)]
    exact newline_silent (!fenced) more
  have regroup : before ++ Text.ofString "\n**Code:**\n```sql\n" ++ content ++
        Text.ofString "\n```\n\n" ++ after ++ rest =
      before ++ (Text.ofString "\n**Code:**\n```sql\n" ++ (content ++ 0x0A ::
        (Text.ofString "```" ++ 0x0A :: 0x0A :: (after ++ rest)))) := by
    simp only [List.append_assoc]
    rfl
  rw [regroup, quiet, opening, found_append, closing, silent]
  rfl

theorem parentLines_silent {c : Chunk} (told : c.Told Tame) : Silent (match c.part with
    | some p =>
      labelled "**Subdivision Info**: Part " (Text.ofInt p.ordinal ++ " of " ++ Text.ofInt p.total) ++
      labelled "**Parent Block**: " (p.parentKind.name ++ " (lines " ++ Text.ofInt p.parentStart ++
        "-" ++ Text.ofInt p.parentEnd ++ ")")
    | none => []) := by
  have words : ∀ {t : Text}, t.all isProseByte = true → Tame t := words_tame
  split
  · rename_i p here
    refine .append (labelled_silent (by decide) (Tame.clear ?_))
      (labelled_silent (by decide) (Tame.clear ?_))
    · exact tame_prose.append (tame_prose.append (tame_prose.ofInt _) (words (by decide)))
        (tame_prose.ofInt _)
    · exact tame_prose.append (tame_prose.append (tame_prose.append (tame_prose.append (tame_prose.append
        (kindName_tame (told.parts p here).1) (words (by decide))) (tame_prose.ofInt _))
        (words (by decide))) (tame_prose.ofInt _)) (words (by decide))
  · exact Silent.nil

theorem names_clear {names : List Text} (tame : ∀ name ∈ names, Tame name) : Clear (Text.join ", " names) :=
  Clear.join fun name listed => (tame name listed).clear

theorem asked_tame (c : Chunk) : ∀ item ∈ questions ++ (if 0 < c.continuesIn then
    [Text.ofString "How does this chunk connect to its continuation in chunk " ++
      Text.ofInt c.continuesIn ++ "?"] else []), Tame item := by
  have fixed : ∀ item ∈ questions, item.all isProseByte = true := by decide +kernel
  rw [List.forall_mem_append]
  refine ⟨fun item listed => words_tame (fixed item listed), fun item listed => ?_⟩
  split at listed
  · rw [List.mem_singleton.mp listed]
    exact tame_prose.append (tame_prose.append (words_tame (by decide)) (tame_prose.ofInt _))
      (words_tame (by decide))
  · cases listed

/-- The text of a chunk is read inside a fence that its section opens and closes again. -/
theorem found_details {c : Chunk} (shown : Presentable c) (inside : Bool) (rest : Text) :
    found (!inside) (details c ++ rest) =
      rangesFrom inside c.lines ++ found (!(fencedAfter inside c.lines)) rest := by
  obtain ⟨told, operations, -, -⟩ := shown
  have named := told.names
  have heading : Leads (Text.ofString "### Chunk " ++ Text.ofInt c.id ++ Text.ofString ": ") :=
    heading_leads c.id (headingMarks_apart _ (by simp [headingMarks]))
      (headingMarks_apart _ (by simp [headingMarks])) (by decide)
  have title : Silent (Text.ofString "### Chunk " ++ Text.ofInt c.id ++ Text.ofString ": " ++ c.title ++
      Text.ofString "\n") :=
    silent_line (heading.clear_append (title_tame told).clear)
  have kind : Silent (labelled "**Type**: " c.kind.name) :=
    labelled_silent (by decide) (kindName_tame told.kind).clear
  have weight : Silent (labelled "**Complexity Score**: " (Text.ofInt c.complexity)) :=
    labelled_silent (by decide) (ofInt_clear _)
  have range : Silent (labelled "**Lines**: " (Text.ofInt c.start ++ "-" ++ Text.ofInt c.stop)) :=
    labelled_silent (by decide) (tame_prose.append (tame_prose.append (tame_prose.ofInt _)
      (words_tame (by decide))) (tame_prose.ofInt _)).clear
  have context : Silent (labelled "**Context**: " c.summary) :=
    labelled_silent (by decide) (summary_tame told).clear
  have performed : Silent (labelledList "**SQL Operations**: " c.operations (Text.join ", ")) :=
    labelledList_silent (by decide) (Clear.join operations)
  have control : Silent (labelledList "**Control Structures**: " c.control (Text.join ", ")) :=
    labelledList_silent (by decide) (names_clear named.control)
  have business : Silent (labelledList "**Business Functions**: " c.business joinFunctions) :=
    labelledList_silent (by decide) (joinFunctions_clear named.business)
  have declared : Silent (labelledList "**Variables Declared**: " c.declared
      fun names => Text.join ", " (names.take maxVariables)) :=
    labelledList_silent (by decide)
      (names_clear fun name taken => named.declared name (List.mem_of_mem_take taken))
  have more : Silent (provided (maxVariables < c.declared.length)
      (labelled "   (and " (Text.ofNat (c.declared.length - maxVariables) ++ " more...)"))) :=
    provided_silent (labelled_silent (by decide)
      (tame_prose.append (tame_prose.ofNat _) (words_tame (by decide))).clear)
  have tables : Silent (labelledList "**Tables/Views**: " c.tables (Text.join ", ")) :=
    labelledList_silent (by decide) (names_clear named.tables)
  have needs : Silent (labelledList "**Sequential Dependencies**: Chunks " c.dependencies joinIds) :=
    labelledList_silent (by decide) (joinIds_clear _)
  have before := (((((((((((title.append kind).append weight).append range).append context).append
    performed).append control).append business).append declared).append more).append tables).append
    needs).append (parentLines_silent told)
  have asks : Silent (Text.ofString "**Analysis Questions:**\n") :=
    fixedLines_silent (by simp [fixedLines])
  have rule : Silent (Text.ofString "\n---\n\n") := fixedLines_silent (by simp [fixedLines])
  have after := (asks.append (numbered_silent 1 (asked_tame c))).append rule
  have read := found_code c.content before after inside rest
  refine Eq.trans (congrArg (fun t => found (!inside) (t ++ rest)) ?_) read
  rw [← List.append_assoc, ← List.append_assoc]
  rfl

theorem found_sections {chunks : List Chunk} (shown : ∀ c ∈ chunks, Presentable c) (inside : Bool) :
    found (!inside) (chunks.flatMap details) = rangesFrom inside (chunks.flatMap Chunk.lines) := by
  induction chunks generalizing inside with
  | nil => cases inside <;> rfl
  | cons c rest ih =>
      rw [List.forall_mem_cons] at shown
      rw [List.flatMap_cons, List.flatMap_cons, found_details shown.1, ih shown.2, rangesFrom_append]

/-! ### The whole guide -/

theorem find_id {chunks : List Chunk} (distinct : (chunks.map Chunk.id).Nodup) {c : Chunk}
    (member : c ∈ chunks) : chunks.find? (fun other => other.id == c.id) = some c := by
  cases found : chunks.find? fun other => other.id == c.id with
  | none =>
      have other := List.find?_eq_none.mp found c member
      simp at other
  | some other =>
      have same : other.id = c.id := by simpa using List.find?_some found
      rw [List.inj_on_of_nodup_map distinct (List.mem_of_find?_eq_some found) member same]

theorem inOrder_perm {chunks : List Chunk} (distinct : (chunks.map Chunk.id).Nodup) {ids : List Int}
    (all : ids.Perm (chunks.map Chunk.id)) : (inOrder chunks ids).Perm chunks := by
  have ordered : (ids.filterMap fun id => chunks.find? fun c => c.id == id).Perm chunks := by
    refine (all.filterMap _).trans (List.Perm.of_eq ?_)
    rw [List.filterMap_map]
    refine (List.filterMap_congr fun c member => ?_).trans List.filterMap_some
    exact find_id distinct member
  rw [inOrder]
  split
  · exact ordered
  · exact .refl chunks

theorem order_shows {rank : Int → Int} {chunks : List Chunk} (orderly : Chunk.Orderly rank chunks)
    (shown : ∀ c ∈ chunks, Presentable c) :
    ∃ ranges, ranges.Perm (Chunk.ranges chunks) ∧ Shows (order chunks) ranges := by
  obtain ⟨ids, sorted, all, -⟩ := DependencyGraph.order_follows rank chunks orderly
  have perm := inOrder_perm orderly.distinct all
  have heading : Silent (Text.ofString "## Sequential Analysis Order\nAnalyze chunks in this order:\n\n") :=
    fixedLines_silent (by simp [fixedLines])
  have listed : order chunks = Text.ofString
      "## Sequential Analysis Order\nAnalyze chunks in this order:\n\n" ++
        orderEntries (some ⟨chunks.map GraphNode.ofChunk⟩) 1 (inOrder chunks ids) := by
    rw [order, DependencyGraph.build_eq_ok rank chunks orderly]
    simp [Except.toOption, sorted]
  refine ⟨_, perm.map _, listed ▸ heading.shows.append (orderEntries_shows _ 1 ?_)⟩
  exact fun c member => shown c (perm.mem_iff.mp member)

/-- The guide shows the range of each chunk once, and besides that only what the lines of the chunks
themselves show to a reader who begins inside a fence. -/
theorem ranges_markdown {rank : Int → Int} {chunks : List Chunk} {z : Sizing}
    (known : z.strategy.name ∈ Text.ofStrings ["strict_logical", "size_constrained", "hybrid"])
    (orderly : Chunk.Orderly rank chunks) (shown : ∀ c ∈ chunks, Presentable c) :
    (ranges (markdown chunks z)).Perm
      (Chunk.ranges chunks ++ rangesFrom true (chunks.flatMap Chunk.lines)) := by
  obtain ⟨listed, perm, shows⟩ := order_shows orderly shown
  have front := (header_silent known).append (statistics_silent fun c member =>
    (shown c member).told.names.business)
  have heading : Silent (Text.ofString "## Detailed Sequential Analysis\n\n") :=
    fixedLines_silent (by simp [fixedLines])
  have read : ranges (markdown chunks z) =
      listed ++ rangesFrom true (chunks.flatMap Chunk.lines) := by
    have whole := ((front.shows.append shows).append heading.shows) (chunks.flatMap details)
    rw [List.nil_append, List.append_nil] at whole
    exact whole.trans (congrArg (listed ++ ·) (found_sections shown true))
  exact read ▸ perm.append_right _

end ScriptAtlas.Guide
