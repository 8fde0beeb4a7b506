import ScriptAtlas.Proofs.Descriptions
import ScriptAtlas.Proofs.ExportReading
import ScriptAtlas.Proofs.LineWeights

/-!
The export loses nothing. Texts that a script gives rise to are valid when the script is, the numbers of
its chunks grow with its length only, and the lines of the chunks are the lines of the script.
-/

namespace ScriptAtlas

/-! ### Valid texts -/

namespace Text

theorem withoutBack_isValid {t : Text} (valid : t.isValid = true) : (t.withoutBack "\n").isValid = true := by
  rw [withoutBack]
  split
  · rename_i ended
    obtain ⟨front, rfl⟩ := List.isSuffixOf_iff_suffix.mp ended
    rw [List.length_append, Nat.add_sub_cancel, List.take_left]
    exact (isValid_cut (b := 0x0A) (by decide) valid).1
  · exact valid

theorem replace_isValid {t : Text} (valid : t.isValid = true) : (t.replace "\r\n" "\n").isValid = true := by
  have each : ∀ front rest : Text, (front ++ rest).isValid = true →
      (front ++ replaceFrom "\r\n" "\n" 0 rest).isValid = true := by
    intro front rest
    induction size : rest.length using Nat.strong_induction_on generalizing front rest with
    | _ n ih =>
        intro whole
        cases rest with
        | nil => exact whole
        | cons b rest =>
            rw [List.length_cons] at size
            rw [replaceFrom]
            split
            · rename_i found
              obtain ⟨more, split⟩ := List.isPrefixOf_iff_prefix.mp found
              obtain ⟨rfl, rfl⟩ : 0x0D = b ∧ 0x0A :: more = rest := List.cons.inj split
              obtain ⟨before, after⟩ := isValid_cut (b := 0x0D) (by decide) whole
              have later := (isValid_cut (s := []) (b := 0x0A) (by decide) after).2
              have replaced := ih more.length (by rw [List.length_cons] at size; omega) [] more rfl later
              exact isValid_append before (isValid_append (s := [0x0A]) (by decide) replaced)
            · have longer := ih rest.length (by omega) (front ++ [b]) rest rfl (by simpa using whole)
              simpa using longer
  exact each [] t valid

theorem isValid_of_join {lines : List Text} (valid : (join [0x0A] lines).isValid = true) :
    ∀ line ∈ lines, line.isValid = true := by
  induction lines with
  | nil => simp
  | cons line rest ih =>
      cases rest with
      | nil => exact List.forall_mem_singleton.mpr valid
      | cons next rest =>
          rw [join, List.append_assoc] at valid
          · obtain ⟨here, later⟩ := isValid_cut (b := 0x0A) (by decide) valid
            exact List.forall_mem_cons.mpr ⟨here, ih later⟩
          · simp

end Text

theorem Script.splitLines_isValid {content : Text} (valid : content.isValid = true) :
    ∀ line ∈ splitLines content, line.isValid = true := by
  apply Text.isValid_of_join
  have joined := join_splitLines content
  exact Eq.mpr (congrArg (fun t => Text.isValid t = true) joined)
    (Text.withoutBack_isValid (Text.replace_isValid valid))

theorem valid_prose : Prose fun t => t.isValid = true where
  nil := rfl
  append := Text.isValid_append
  byte := by decide +kernel
  longS := by decide
  kelvinSign := by decide

theorem tag_isValid {tag : Text} (isTag : Vocabulary.IsTag (fun t => t.isValid = true) tag) :
    tag.isValid = true := by
  have fixed : ∀ tag ∈ Vocabulary.fixedTags, tag.isValid = true := by decide
  have labels : ∀ label ∈ Vocabulary.tagLabels, label.isValid = true := by decide
  rcases isTag with listed | ⟨label, listed, name, valid, rfl⟩
  · exact fixed tag listed
  · exact Text.isValid_append (labels label listed) valid

theorem strategyName_isValid {z : Sizing} (usable : z.check = .ok ()) : z.strategy.name.isValid = true := by
  have names : ∀ name ∈ Text.ofStrings ["strict_logical", "size_constrained", "hybrid"],
      name.isValid = true := by
    decide
  exact names _ (Sizing.strategy_of_check usable)

theorem kindName_isValid {kind : ChunkKind} (known : kind.isKnown = true) : kind.name.isValid = true := by
  have names : ∀ kind ∈ ChunkKind.priority, kind.name.isValid = true := by decide
  exact names kind (List.elem_iff.mp known)

theorem ofChunk_texts {c : Chunk} (told : c.Told fun t => t.isValid = true)
    (lines : ∀ line ∈ c.lines, line.isValid = true) :
    ∀ t ∈ (Export.ofChunk c).texts, t.isValid = true := by
  have business : ∀ name ∈ Vocabulary.businessFunctions.map Prod.fst, name.isValid = true := by
    decide
  have named := told.names
  have title : c.title.isValid = true := told.title ▸ Chunk.titleOf_holds valid_prose told
  have summary : c.summary.isValid = true := told.summary ▸ Chunk.summaryOf_holds valid_prose told
  simp only [ExportChunk.texts, List.forall_mem_append, List.forall_mem_cons, List.flatMap_cons,
    List.flatMap_nil]
  refine ⟨⟨⟨title, kindName_isValid told.kind, summary, by simp⟩, lines, fun tag listed =>
    tag_isValid (named.operations tag listed), named.declared, named.used, named.tables, named.control,
    fun name listed => business name (named.business name listed), by simp⟩, ?_⟩
  intro t member
  obtain ⟨p, here, inside⟩ := List.mem_flatMap.mp member
  obtain ⟨part, isPart, rfl⟩ := Option.map_eq_some_iff.mp (Option.mem_toList.mp here)
  obtain ⟨known, reason⟩ := told.parts part isPart
  simp only [ExportPart.texts, List.mem_cons, List.not_mem_nil, or_false] at inside
  rcases inside with rfl | rfl
  · exact kindName_isValid known
  · exact reason

theorem ofChunks_texts {content : Text} {z : Sizing} (valid : content.isValid = true)
    (usable : z.check = .ok ()) :
    ∀ t ∈ (Export.ofChunks (chunkContent content z) z).texts, t.isValid = true := by
  have source := Script.splitLines_isValid valid
  have same := chunkLines_lines (Script.splitLines content) z (Script.splitLines_clean content)
  refine List.forall_mem_cons.mpr ⟨strategyName_isValid usable, fun t member => ?_⟩
  obtain ⟨_, listed, inside⟩ := List.mem_flatMap.mp member
  obtain ⟨c, here, rfl⟩ := List.mem_map.mp listed
  refine ofChunk_texts (Script.chunks_told valid_prose _ z c here) (fun line among => source line ?_) t inside
  exact same ▸ List.mem_flatMap.mpr ⟨c, here, among⟩

/-! ### Numbers of 64 bits -/

namespace LineRange

theorem Tile.length_le {first last : Int} {ranges : List LineRange} (tile : Tile first last ranges) :
    first + ranges.length ≤ last + 1 := by
  induction ranges generalizing first with
  | nil =>
      have stop : first = last + 1 := tile
      rw [List.length_nil]
      omega
  | cons r rest ih =>
      obtain ⟨start, nonempty, after⟩ := tile
      have later := ih after
      rw [List.length_cons]
      omega

end LineRange

theorem Chunk.PartsOf.part_total {whole : Chunk} {group : List Chunk} (parts : whole.PartsOf group)
    {c : Chunk} (member : c ∈ group) {p : Part} (isPart : c.part = some p) : p.total = group.length := by
  cases parts with
  | undivided d plain =>
      rw [List.mem_singleton.mp member, plain] at isPart
      cases isPart
  | divided _ reason several numbered =>
      obtain ⟨k, here⟩ := List.mem_iff_getElem?.mp member
      rw [numbered k c here] at isPart
      cases isPart
      rfl

namespace Script

theorem splitLines_length_le (content : Text) : (splitLines content).length ≤ content.length + 1 := by
  have lengths := splitLines_lengths_le content
  have least : ∀ lines : List Text, lines.length ≤ (lines.map fun raw => raw.length + 1).sum := by
    intro lines
    induction lines with
    | nil => exact Nat.le_refl 0
    | cons line rest ih =>
        rw [List.map_cons, List.sum_cons, List.length_cons]
        omega
  exact (least _).trans lengths

theorem chunks_length_le (s : Script) (z : Sizing) : (s.chunks z).length ≤ s.size := by
  have tile := (chunks_tile s z).length_le
  rw [Chunk.ranges, List.length_map] at tile
  omega

theorem chunks_part (s : Script) (z : Sizing) {c : Chunk} (member : c ∈ s.chunks z) {p : Part}
    (isPart : c.part = some p) : ∀ n ∈ (Export.ofPart p).numbers, 0 ≤ n ∧ n ≤ s.size := by
  have count := chunks_length_le s z
  obtain ⟨groups, flat, -, related⟩ := chunks_groups s z
  rw [← flat] at member count
  obtain ⟨group, among, inside⟩ := List.mem_flatten.mp member
  have size := (List.infix_of_mem_flatten among).length_le
  obtain ⟨k, low, rfl⟩ := List.getElem_of_mem among
  have planned : k < s.plan.length := related.length_eq ▸ low
  have bounds := (plan_tiles s).mem_bounds _ (List.mem_map_of_mem (List.getElem_mem planned))
  have parts := (Divider.chunksOf_partsOf _ _).congr (related.get planned low)
  obtain ⟨-, start, stop, ordinal, most⟩ := parts.part_eq c inside p isPart
  have total := parts.part_total inside isPart
  rw [Chunk.ofLines] at start stop
  simp only [Export.ofPart, ExportPart.numbers, List.forall_mem_cons]
  simp only [Block.span, List.get_eq_getElem] at bounds start stop total
  refine ⟨?_, ?_, ?_, ?_, by simp⟩ <;> omega

/-- The numbers of a chunk grow with the length of the script only. -/
theorem chunks_numbers (content : Text) (z : Sizing) {c : Chunk}
    (member : c ∈ (ofLines (splitLines content)).chunks z) :
    ∀ n ∈ (Export.ofChunk c).numbers, 0 ≤ n ∧ n ≤ 156 * (content.length + 1) := by
  have size : (ofLines (splitLines content)).size ≤ content.length + 1 :=
    (ofLines_size _).symm ▸ splitLines_length_le content
  have count := chunks_length_le (ofLines (splitLines content)) z
  have ids := chunks_id (ofLines (splitLines content)) z
  have linked := chunks_linked (ofLines (splitLines content)) z
  obtain ⟨k, here⟩ := List.mem_iff_getElem?.mp member
  have place := (List.getElem?_eq_some_iff.mp here).1
  have id := ids k c here
  obtain ⟨span, -, -, -, -, weight⟩ := chunks_getElem _ z k c here
  have heavy := weight_le content span.1 span.2
  have bounds := (chunks_tile (ofLines (splitLines content)) z).bounds.2 ⟨c.start, c.stop⟩
    (List.mem_map_of_mem member)
  have back : 0 ≤ c.continuesFrom ∧ c.continuesFrom ≤ content.length + 1 := by
    by_cases none : c.continuesFrom = 0
    · omega
    · obtain ⟨j, previous, before, there, -, same⟩ := linked.continuesFrom_eq k c here none
      have number := ids j previous there
      omega
  have forth : 0 ≤ c.continuesIn ∧ c.continuesIn ≤ content.length + 1 := by
    by_cases none : c.continuesIn = 0
    · omega
    · obtain ⟨next, there, -, same⟩ := linked.continuesIn_eq k c here none
      have after := (List.getElem?_eq_some_iff.mp there).1
      have number := ids (k + 1) next there
      omega
  have needs := (chunks_backward (ofLines (splitLines content)) z c member).2
  have part : ∀ n ∈ (Export.ofChunk c).part.toList.flatMap ExportPart.numbers,
      0 ≤ n ∧ n ≤ content.length + 1 := by
    intro n inside
    obtain ⟨p, listed, among⟩ := List.mem_flatMap.mp inside
    obtain ⟨part, isPart, rfl⟩ := Option.map_eq_some_iff.mp (Option.mem_toList.mp listed)
    have low := chunks_part _ z member isPart n among
    omega
  simp only [ExportChunk.numbers, List.forall_mem_append, List.forall_mem_cons]
  simp only [Export.ofChunk, Option.getD_some] at *
  refine ⟨⟨⟨?_, ?_, ?_, ?_, ?_, ?_, by simp⟩, fun d needed => ?_⟩, fun n inside => ?_⟩
  iterate 6
    · omega
  · have bound := needs d needed
    omega
  · have bound := part n inside
    omega

end Script

theorem ofChunks_numbers {content : Text} {z : Sizing}
    (ints : ∀ n ∈ [z.target, z.min, z.max, z.force, z.complexity, z.depth], IsInt64 n)
    (room : content.length < 2 ^ 48) :
    ∀ n ∈ (Export.ofChunks (chunkContent content z) z).numbers, IsInt64 n := by
  refine List.forall_mem_append.mpr ⟨ints, fun n member => ?_⟩
  obtain ⟨_, listed, inside⟩ := List.mem_flatMap.mp member
  obtain ⟨c, here, rfl⟩ := List.mem_map.mp listed
  have bounds := Script.chunks_numbers content z here n inside
  rw [IsInt64, minInt64, maxInt64]
  omega

/-- The export of a valid text reads back whole, with the ranges of the chunks, and its lines are the
text with its line ends made uniform. The sizes are 64-bit numbers, and the text fits in an address space
of 48 bits. -/
theorem export_lossless (content : Text) (z : Sizing) (valid : content.isValid = true)
    (usable : z.check = .ok ())
    (ints : ∀ n ∈ [z.target, z.min, z.max, z.force, z.complexity, z.depth], IsInt64 n)
    (room : content.length < 2 ^ 48) :
    let chunks := chunkContent content z
    let written := Export.ofChunks chunks z
    Export.parse? (Export.render chunks z) = some written ∧
      written.ranges = Chunk.ranges chunks ∧
      Text.join "\n" ((written.chunks.getD []).flatMap fun c => c.lines.getD []) =
        (content.replace "\r\n" "\n").withoutBack "\n" := by
  intro chunks written
  refine ⟨Export.parse_toJson (ofChunks_texts valid usable) (ofChunks_numbers ints room), ?_, ?_⟩
  · exact List.map_map
  · have lines : (written.chunks.getD []).flatMap (fun c => c.lines.getD []) = Script.splitLines content := by
      refine Eq.trans (List.flatMap_map _ _ _) ?_
      exact chunkLines_lines _ z (Script.splitLines_clean content)
    rw [lines, Script.join_splitLines]

def escapedLiteral : Text :=
  "SELECT '<\"\u2028>'\r\n\r\nGO\n"

theorem export_lossless_literal :
    escapedLiteral.isValid = true ∧ Sizing.default.check = .ok () ∧
    Export.parse? (Export.render (chunkContent escapedLiteral .default) .default) =
      some (Export.ofChunks (chunkContent escapedLiteral .default) .default) ∧
    Text.join "\n" (((Export.ofChunks (chunkContent escapedLiteral .default) .default).chunks.getD []).flatMap
      fun c => c.lines.getD []) = Text.ofString "SELECT '<\"\u2028>'\n\nGO" := by
  have valid : escapedLiteral.isValid = true := by decide +kernel
  have usable : Sizing.default.check = .ok () := by decide +kernel
  obtain ⟨read, -, lines⟩ := export_lossless escapedLiteral .default valid usable
    (by simp only [IsInt64]; decide +kernel) (by decide +kernel)
  refine ⟨valid, usable, read, lines.trans ?_⟩
  decide +kernel

end ScriptAtlas
