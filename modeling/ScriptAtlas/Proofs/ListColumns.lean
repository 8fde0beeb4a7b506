import Mathlib.Data.List.Forall2
import ScriptAtlas.Proofs.JsonReading
import ScriptAtlas.Store.Tables

/-!
Columns that hold lists of texts read back, and with them the rows of chunks.
-/

namespace ScriptAtlas

namespace Json

theorem compactItems_cons (item next : Json) (items : List Json) :
    compactItems (item :: next :: items) = compact item ++ 0x2C :: compactItems (next :: items) := by
  rw [compactItems]
  · exact List.append_assoc _ _ _
  · simp

theorem compactItems_head (first : Text) (values : List Text) :
    ∃ more, compactItems ((first :: values).map string) = 0x22 :: more := by
  cases values with
  | nil => exact ⟨_, rfl⟩
  | cons next values => exact ⟨_, compactItems_cons _ _ _⟩

theorem length_le_compactItems (first : Json) (items : List Json) :
    items.length ≤ (compactItems (first :: items)).length := by
  induction items generalizing first with
  | nil => exact Nat.zero_le _
  | cons next items ih =>
      have later := ih next
      rw [compactItems_cons, List.length_append, List.length_cons, List.length_cons]
      omega

theorem readValue_quote (steps depth : Nat) (t rest : Text) :
    readValue (steps + 1) depth (compact (.string t) ++ rest) = some (.string t.repaired, rest) := by
  have text : compact (.string t) ++ rest = 0x22 :: (t.glyphs.flatMap escapeGlyph ++ 0x22 :: rest) := by
    simp only [compact, quote, List.append_assoc]
    rfl
  rw [text, readValue.eq_def]
  exact congrArg (Option.map _) (readString_glyphs t rest)

theorem readItems_quotes (first : Text) (values : List Text) (steps depth : Nat) (rest : Text)
    (room : values.length + 2 ≤ steps) :
    readItems steps depth (compactItems ((first :: values).map string) ++ 0x5D :: rest) =
      some ((first :: values).map fun t => string t.repaired, rest) := by
  induction values generalizing first steps with
  | nil =>
      obtain ⟨steps, rfl⟩ : ∃ fewer, steps = fewer + 2 := ⟨steps - 2, by simp at room; omega⟩
      rw [List.map_cons, List.map_nil, compactItems, readItems, readValue_quote]
      dsimp only
      rw [skipSpace_cons (by decide)]
      rfl
  | cons next values ih =>
      rw [List.length_cons] at room
      obtain ⟨steps, rfl⟩ : ∃ fewer, steps = fewer + 2 := ⟨steps - 2, by omega⟩
      have later := ih next (steps + 1) (by omega)
      obtain ⟨more, begun⟩ := compactItems_head next values
      rw [begun, List.cons_append, ← skipSpace_cons (by decide)] at later
      rw [List.map_cons, List.map_cons, compactItems_cons, ← List.map_cons, List.append_assoc, readItems,
        readValue_quote]
      dsimp only
      rw [List.cons_append, skipSpace_cons (by decide), begun]
      exact congrArg (Option.map _) later

theorem parse_ofTexts (values : List Text) :
    parse? (compact (ofTexts values)) = some (ofTexts (values.map Text.repaired)) := by
  cases values with
  | nil => rfl
  | cons first values =>
      have text : compact (ofTexts (first :: values)) =
          0x5B :: (compactItems ((first :: values).map string) ++ [0x5D]) := by
        rw [ofTexts, compact]
        rfl
      have room := length_le_compactItems (string first) (values.map string)
      rw [List.length_map, ← List.map_cons] at room
      obtain ⟨steps, size, enough⟩ : ∃ steps,
          2 * (compact (ofTexts (first :: values))).length + 2 = steps + 1 ∧ values.length + 2 ≤ steps := by
        refine ⟨_, rfl, ?_⟩
        rw [text, List.length_cons, List.length_append]
        omega
      have read := readItems_quotes first values steps 9999 [] enough
      obtain ⟨more, begun⟩ := compactItems_head first values
      rw [parse?, size, text, skipSpace_cons (by decide)]
      rw [begun, List.cons_append] at read ⊢
      have front : skipSpace (0x22 :: (more ++ [0x5D])) = 0x22 :: (more ++ [0x5D]) :=
        skipSpace_cons (by decide) _
      have value : readValue (steps + 1) maxDepth (0x5B :: 0x22 :: (more ++ [0x5D])) = _ :=
        readValue_items (by rw [front, List.head?_cons]; decide)
      rw [value, front, read]
      simp [ofTexts, skipSpace]

end Json

namespace ListColumn

theorem mapM_element (values : List Text) : (values.map Json.string).mapM element? = some values := by
  induction values with
  | nil => rfl
  | cons t values ih =>
      rw [List.map_cons, List.mapM_cons, ih]
      rfl

theorem decode_encode_repaired (values : List Text) :
    decode? (encode values) = some (values.map Text.repaired) := by
  have written : (encode values).isEmpty = false := by
    rw [encode, Json.ofTexts, Json.compact]
    rfl
  rw [decode?, written, encode, Json.parse_ofTexts]
  exact mapM_element _

theorem decode_encode {values : List Text} (valid : ∀ t ∈ values, t.isValid = true) :
    decode? (encode values) = some values := by
  rw [decode_encode_repaired]
  refine congrArg some ((List.map_congr_left fun t member => ?_).trans (List.map_id values))
  exact Text.repaired_of_isValid (valid t member)

/-- Every list comes back from its column, each text mended; it is the same list exactly when all its texts
are written in characters. -/
theorem decode_encode_mends (values : List Text) :
    (∃ mended, decode? (encode values) = some mended ∧ List.Forall₂ Text.Mends values mended) ∧
      (decode? (encode values) = some values ↔ ∀ t ∈ values, ∃ cs, t = Text.ofChars cs) := by
  rw [decode_encode_repaired]
  constructor
  · refine ⟨_, rfl, List.forall₂_map_right_iff.mpr (List.forall₂_same.mpr fun t _ => ?_)⟩
    exact (Text.mends_iff t t.repaired).mpr rfl
  · calc
      some (values.map Text.repaired) = some values ↔ values.map Text.repaired = values.map id := by
        rw [Option.some_inj, List.map_id]
      _ ↔ ∀ t ∈ values, t.repaired = id t := List.map_inj_left
      _ ↔ ∀ t ∈ values, ∃ cs, t = Text.ofChars cs := forall₂_congr fun t _ => Text.repaired_eq_self_iff t

/-- The empty text, escapes of each form, marks of web pages and line ends beyond ASCII. -/
theorem decode_encode_mends_marks :
    let strings := [[], ['"', '\\', '\n', '\x01'], ['<', '&', '>', '\u2028', '\u2029', 'é', '😀']]
    let values := strings.map Text.ofChars
    (∀ t ∈ values, ∃ cs, t = Text.ofChars cs) ∧ decode? (encode values) = some values := by
  intro strings values
  have written : ∀ t ∈ values, ∃ cs, t = Text.ofChars cs := by
    intro t member
    obtain ⟨cs, -, rfl⟩ := List.mem_map.mp member
    exact ⟨cs, rfl⟩
  exact ⟨written, (decode_encode_mends values).2.mpr written⟩

/-- Each byte of a character that is cut short is replaced on its own. -/
example : decode? (encode [[0xE2, 0x80], [0x61, 0xFF]]) =
    some [Text.ofString "\uFFFD\uFFFD", Text.ofString "a\uFFFD"] := by
  decide +kernel

end ListColumn

/-! ### Rows of chunks -/

def Chunk.Legible (c : Chunk) : Prop :=
  ∀ values ∈ [c.operations, c.declared, c.used, c.tables, c.control, c.business], ∀ t ∈ values,
    t.isValid = true

instance (c : Chunk) : Decidable c.Legible :=
  inferInstanceAs (Decidable (∀ values ∈ [c.operations, c.declared, c.used, c.tables, c.control, c.business],
    ∀ t ∈ values, t.isValid = true))

namespace ChunkRow

theorem part_ofChunk (id script : Int) (c : Chunk) : (ofChunk id script c).part? = c.part := by
  cases from_block : c.part with
  | none => simp [part?, ofChunk, from_block]
  | some p => simp [part?, ofChunk, from_block, ChunkKind.ofName_name]

/-- The row of a chunk holds everything but its dependencies. -/
theorem scan_ofChunk (id script : Int) (c : Chunk) (legible : c.Legible) :
    (ofChunk id script c).scan? = some { c with dependencies := [] } := by
  simp only [Chunk.Legible, List.forall_mem_cons] at legible
  obtain ⟨operations, declared, used, tables, control, business, -⟩ := legible
  rw [scan?, part_ofChunk]
  simp only [ofChunk, ListColumn.decode_encode operations, ListColumn.decode_encode declared,
    ListColumn.decode_encode used, ListColumn.decode_encode tables, ListColumn.decode_encode control,
    ListColumn.decode_encode business, Digest.ofBytes_bytes, ChunkKind.ofName_name]
  rfl

end ChunkRow

end ScriptAtlas
