import ScriptAtlas.Guide.Export
import ScriptAtlas.Proofs.JsonReading

/-!
An export reads back from its own text, field by field, as long as its texts are valid and its numbers
have 64 bits.
-/

namespace ScriptAtlas

def IsInt64 (n : Int) : Prop :=
  minInt64 ≤ n ∧ n ≤ maxInt64

/-! ### What an export holds -/

namespace ExportPart

def texts (p : ExportPart) : List Text :=
  [p.parentType, p.reason]

def numbers (p : ExportPart) : List Int :=
  [p.parentStart, p.parentEnd, p.index, p.total]

end ExportPart

namespace ExportChunk

def texts (c : ExportChunk) : List Text :=
  [c.title, c.kind, c.summary] ++ ([c.lines, c.operations, c.declared, c.used, c.tables, c.control,
    c.business].flatMap fun list => list.getD []) ++ c.part.toList.flatMap ExportPart.texts

def numbers (c : ExportChunk) : List Int :=
  [c.id, c.start, c.stop, c.complexity, c.continuesFrom, c.continuesIn] ++ c.dependencies.getD [] ++
    c.part.toList.flatMap ExportPart.numbers

end ExportChunk

namespace Export

def texts (e : Export) : List Text :=
  e.strategy :: (e.chunks.getD []).flatMap ExportChunk.texts

def numbers (e : Export) : List Int :=
  [e.sizing.target, e.sizing.min, e.sizing.max, e.sizing.force, e.sizing.complexity, e.sizing.depth] ++
    (e.chunks.getD []).flatMap ExportChunk.numbers

/-! ### Single values -/

variable {α β : Type}

theorem intOfLiteral_ofInt {n : Int} (fits : IsInt64 n) : Json.intOfLiteral (Text.ofInt n) = some n := by
  have digits : ∀ n, ¬ ((Text.ofNat n).isEmpty || !(Text.ofNat n).all Text.isDigit) = true := by
    intro n
    simp [Text.ofNat_isDigit, Text.ofNat_ne_nil]
  have bounds : (minInt64 ≤ n && n ≤ maxInt64) = true := by
    simpa [IsInt64] using fits
  rw [Json.intOfLiteral.eq_def]
  split
  rename_i negative written sign
  cases n with
  | ofNat n =>
      obtain ⟨rfl, rfl⟩ : negative = false ∧ written = Text.ofNat n := by
        split at sign
        · rename_i rest same
          have digit := Text.isDigit_of_mem_ofNat (n := n) (same ▸ List.mem_cons_self)
          exact absurd digit (by decide)
        · cases sign
          exact ⟨rfl, rfl⟩
      rw [if_neg (digits n), Text.digitsValue_ofNat]
      exact if_pos bounds
  | negSucc n =>
      obtain ⟨rfl, rfl⟩ : negative = true ∧ written = Text.ofNat (n + 1) := by
        cases sign
        exact ⟨rfl, rfl⟩
      rw [if_neg (digits (n + 1)), Text.digitsValue_ofNat]
      exact if_pos bounds

theorem readText_string (t old : Text) : readText old (.string t) = some t :=
  rfl

theorem readInt_ofInt {n : Int} (fits : IsInt64 n) (old : Int) : readInt old (.ofInt n) = some n :=
  intOfLiteral_ofInt fits

theorem readItemsOver_map {zero : α} {item : Over α} {write : α → Json} {items : List α}
    (each : ∀ x ∈ items, item zero (write x) = some x) :
    readItemsOver zero item [] (items.map write) = some items := by
  induction items with
  | nil => rfl
  | cons x items ih =>
      rw [List.forall_mem_cons] at each
      rw [List.map_cons, readItemsOver, each.1, ih each.2]
      rfl

theorem readTexts_nullable (texts : Option (List Text)) : readTexts none (nullable .ofTexts texts) = some texts := by
  cases texts with
  | none => rfl
  | some texts => exact congrArg (Option.map some) (readItemsOver_map fun _ _ => rfl)

theorem readNumbers_nullable {numbers : Option (List Int)} (fits : ∀ n ∈ numbers.getD [], IsInt64 n) :
    readList 0 readInt none (nullable .ofInts numbers) = some numbers := by
  cases numbers with
  | none => rfl
  | some numbers =>
      exact congrArg (Option.map some) (readItemsOver_map fun n member => readInt_ofInt (fits n member) 0)

/-! ### Objects -/

theorem readObject_field {fields : List (Text × Over α)} {name : Text} {get : α → β} {set : α → β → α}
    {read : Over β} (found : lookup fields name = some (field get set read)) {old : α} {j : Json} {v : β}
    (restored : read (get old) j = some v) (members : List (Text × Json)) :
    readObject (lookup fields) old (.object ((name, j) :: members)) =
      readObject (lookup fields) (set old v) (.object members) := by
  rw [readObject, List.foldlM_cons]
  dsimp only
  rw [found]
  dsimp only
  rw [field, restored]
  rfl

theorem readObject_part {p : ExportPart} (fits : ∀ n ∈ p.numbers, IsInt64 n) :
    readObject (lookup partFields) {} (partJson p) = some p := by
  simp only [ExportPart.numbers, List.forall_mem_cons] at fits
  obtain ⟨start, stop, index, total, -⟩ := fits
  refine Eq.trans (readObject_field rfl (readText_string p.parentType _) _) ?_
  refine Eq.trans (readObject_field rfl (readInt_ofInt start _) _) ?_
  refine Eq.trans (readObject_field rfl (readInt_ofInt stop _) _) ?_
  refine Eq.trans (readObject_field rfl (readInt_ofInt index _) _) ?_
  refine Eq.trans (readObject_field rfl (readInt_ofInt total _) _) ?_
  exact Eq.trans (readObject_field rfl (readText_string p.reason _) _) rfl

/-- A member that is left out when it is zero leaves the zero that is there. -/
theorem readObject_nonzero {fields : List (Text × Over α)} {name : Text} {get : α → Int} {set : α → Int → α}
    (found : lookup fields name = some (field get set readInt)) {old : α} {n : Int} (fits : IsInt64 n)
    (fresh : set old 0 = old) (members : List (Text × Json)) :
    readObject (lookup fields) old (.object (nonzero name n ++ members)) =
      readObject (lookup fields) (set old n) (.object members) := by
  rw [nonzero]
  split
  · rename_i zero
    rw [eq_of_beq zero, fresh]
    rfl
  · exact readObject_field found (readInt_ofInt fits _) members

theorem readObject_optional {fields : List (Text × Over α)} {name : Text} {get : α → Option ExportPart}
    {set : α → Option ExportPart → α} (found : lookup fields name = some (field get set readPart)) {old : α}
    {part : Option ExportPart} (fits : ∀ n ∈ part.toList.flatMap ExportPart.numbers, IsInt64 n)
    (fresh : get old = none) (same : set old none = old) (members : List (Text × Json)) :
    readObject (lookup fields) old
        (.object ((part.map fun p => (name, partJson p)).toList ++ members)) =
      readObject (lookup fields) (set old part) (.object members) := by
  cases part with
  | none =>
      rw [same]
      rfl
  | some p =>
      have part := readObject_part fun n member => fits n (by simpa using member)
      refine readObject_field found ?_ members
      rw [fresh]
      exact congrArg (Option.map some) part

theorem readObject_chunk {c : ExportChunk} (fits : ∀ n ∈ c.numbers, IsInt64 n) :
    readObject (lookup chunkFields) {} (chunkJson c) = some c := by
  simp only [ExportChunk.numbers, List.forall_mem_append, List.forall_mem_cons] at fits
  obtain ⟨⟨⟨id, start, stop, weight, back, forth, -⟩, needs⟩, part⟩ := fits
  refine Eq.trans (readObject_field rfl (readInt_ofInt id _) _) ?_
  refine Eq.trans (readObject_field rfl (readText_string c.title _) _) ?_
  refine Eq.trans (readObject_field rfl (readTexts_nullable c.lines) _) ?_
  refine Eq.trans (readObject_field rfl (readInt_ofInt start _) _) ?_
  refine Eq.trans (readObject_field rfl (readInt_ofInt stop _) _) ?_
  refine Eq.trans (readObject_field rfl (readText_string c.kind _) _) ?_
  refine Eq.trans (readObject_field rfl (readInt_ofInt weight _) _) ?_
  refine Eq.trans (readObject_field rfl (readTexts_nullable c.operations) _) ?_
  refine Eq.trans (readObject_field rfl (readTexts_nullable c.declared) _) ?_
  refine Eq.trans (readObject_field rfl (readTexts_nullable c.used) _) ?_
  refine Eq.trans (readObject_field rfl (readTexts_nullable c.tables) _) ?_
  refine Eq.trans (readObject_field rfl (readTexts_nullable c.control) _) ?_
  refine Eq.trans (readObject_field rfl (readNumbers_nullable needs) _) ?_
  refine Eq.trans (readObject_field rfl (readText_string c.summary _) _) ?_
  refine Eq.trans (readObject_field rfl (readTexts_nullable c.business) _) ?_
  refine Eq.trans (congrArg _ (congrArg Json.object (List.append_assoc _ _ _))) ?_
  refine Eq.trans (readObject_optional rfl part rfl rfl _) ?_
  refine Eq.trans (readObject_nonzero rfl back rfl _) ?_
  refine Eq.trans (congrArg _ (congrArg Json.object (List.append_nil _).symm)) ?_
  exact Eq.trans (readObject_nonzero rfl forth rfl _) rfl

theorem readObject_sizing {z : ExportSizing}
    (fits : ∀ n ∈ [z.target, z.min, z.max, z.force, z.complexity, z.depth], IsInt64 n)
    (old : ExportSizing) :
    readObject (lookup sizingFields) old (.record [("target_chunk_size", .ofInt z.target),
      ("min_chunk_size", .ofInt z.min), ("max_chunk_size", .ofInt z.max),
      ("force_subdivision_threshold", .ofInt z.force), ("max_complexity", .ofInt z.complexity),
      ("max_recursion_depth", .ofInt z.depth)]) = some z := by
  simp only [List.forall_mem_cons] at fits
  obtain ⟨target, min, max, force, complexity, depth, -⟩ := fits
  refine Eq.trans (readObject_field rfl (readInt_ofInt target _) _) ?_
  refine Eq.trans (readObject_field rfl (readInt_ofInt min _) _) ?_
  refine Eq.trans (readObject_field rfl (readInt_ofInt max _) _) ?_
  refine Eq.trans (readObject_field rfl (readInt_ofInt force _) _) ?_
  refine Eq.trans (readObject_field rfl (readInt_ofInt complexity _) _) ?_
  exact Eq.trans (readObject_field rfl (readInt_ofInt depth _) _) rfl

theorem readList_chunks {chunks : Option (List ExportChunk)}
    (fits : ∀ n ∈ (chunks.getD []).flatMap ExportChunk.numbers, IsInt64 n) :
    readList {} (readObject (lookup chunkFields)) none
      (nullable (fun chunks => .array (chunks.map chunkJson)) chunks) = some chunks := by
  cases chunks with
  | none => rfl
  | some chunks =>
      refine congrArg (Option.map some) (readItemsOver_map fun c member => readObject_chunk ?_)
      exact fun n inside => fits n (List.mem_flatMap.mpr ⟨c, member, inside⟩)

theorem readObject_toJson {e : Export} (fits : ∀ n ∈ e.numbers, IsInt64 n) :
    readObject (lookup exportFields) {} e.toJson = some e := by
  rw [numbers, List.forall_mem_append] at fits
  refine Eq.trans (readObject_field rfl (readText_string e.strategy _) _) ?_
  refine Eq.trans (readObject_field rfl (readObject_sizing fits.1 _) _) ?_
  exact Eq.trans (readObject_field rfl (readList_chunks fits.2) _) rfl

/-! ### The document -/

theorem readable_string {t : Text} (valid : t.isValid = true) (depth : Nat) : (Json.string t).Readable depth := by
  cases depth <;> exact valid

theorem readable_ofInt (n : Int) (depth : Nat) : (Json.ofInt n).Readable depth := by
  cases depth <;> exact ⟨n, rfl⟩

theorem readable_null (depth : Nat) : Json.null.Readable depth := by
  cases depth <;> trivial

theorem ofString_isValid (s : String) : (Text.ofString s).isValid = true :=
  (Text.isValid_iff _).mpr ⟨s.toList, rfl⟩

theorem fields_readable {depth : Nat} {members : List (String × Json)}
    (each : ∀ m ∈ members, m.2.Readable depth) :
    ∀ m ∈ Json.fields members, m.1.isValid = true ∧ m.2.Readable depth := by
  intro m member
  obtain ⟨⟨name, value⟩, listed, rfl⟩ := List.mem_map.mp member
  exact ⟨ofString_isValid name, each _ listed⟩

theorem nullable_readable {write : List α → Json} {items : Option (List α)} {depth : Nat}
    (readable : (write (items.getD [])).Readable depth) : (nullable write items).Readable depth := by
  cases items with
  | none => exact readable_null depth
  | some items => exact readable

theorem texts_readable {texts : Option (List Text)} (valid : ∀ t ∈ texts.getD [], t.isValid = true)
    (depth : Nat) : (nullable .ofTexts texts).Readable (depth + 1) := by
  refine nullable_readable fun item member => ?_
  obtain ⟨t, listed, rfl⟩ := List.mem_map.mp member
  exact readable_string (valid t listed) depth

theorem numbers_readable (numbers : Option (List Int)) (depth : Nat) :
    (nullable .ofInts numbers).Readable (depth + 1) := by
  refine nullable_readable fun item member => ?_
  obtain ⟨n, _, rfl⟩ := List.mem_map.mp member
  exact readable_ofInt n depth

theorem partJson_readable {p : ExportPart} (valid : ∀ t ∈ p.texts, t.isValid = true) (depth : Nat) :
    (partJson p).Readable (depth + 1) := by
  simp only [ExportPart.texts, List.forall_mem_cons] at valid
  refine fields_readable ?_
  simp only [List.forall_mem_cons]
  exact ⟨readable_string valid.1 depth, readable_ofInt _ _, readable_ofInt _ _, readable_ofInt _ _,
    readable_ofInt _ _, readable_string valid.2.1 depth, by simp⟩

theorem nonzero_readable (name : String) (n : Int) (depth : Nat) :
    ∀ m ∈ nonzero name n, m.1.isValid = true ∧ m.2.Readable depth := by
  intro m member
  rw [nonzero] at member
  split at member
  · cases member
  · rw [List.mem_singleton.mp member]
    exact ⟨ofString_isValid name, readable_ofInt n depth⟩

theorem chunkJson_readable {c : ExportChunk} (valid : ∀ t ∈ c.texts, t.isValid = true) (depth : Nat) :
    (chunkJson c).Readable (depth + 2) := by
  simp only [ExportChunk.texts, List.forall_mem_append, List.forall_mem_cons, List.flatMap_cons,
    List.flatMap_nil] at valid
  obtain ⟨⟨⟨title, kind, summary, -⟩, lines, operations, declared, used, tables, control, business, -⟩,
    part⟩ := valid
  refine List.forall_mem_append.mpr ⟨List.forall_mem_append.mpr ⟨List.forall_mem_append.mpr
    ⟨fields_readable ?_, ?_⟩, nonzero_readable _ _ _⟩, nonzero_readable _ _ _⟩
  · simp only [List.forall_mem_cons]
    exact ⟨readable_ofInt _ _, readable_string title _, texts_readable lines depth, readable_ofInt _ _,
      readable_ofInt _ _, readable_string kind _, readable_ofInt _ _, texts_readable operations depth,
      texts_readable declared depth, texts_readable used depth, texts_readable tables depth,
      texts_readable control depth, numbers_readable _ depth, readable_string summary _,
      texts_readable business depth, by simp⟩
  · intro m member
    rw [Option.mem_toList, Option.map_eq_some_iff] at member
    obtain ⟨p, here, rfl⟩ := member
    rw [here] at part
    exact ⟨ofString_isValid _, partJson_readable (by simpa using part) depth⟩

theorem toJson_readable {e : Export} (valid : ∀ t ∈ e.texts, t.isValid = true) (depth : Nat) :
    e.toJson.Readable (depth + 4) := by
  rw [texts, List.forall_mem_cons] at valid
  refine fields_readable ?_
  simp only [List.forall_mem_cons]
  refine ⟨readable_string valid.1 _, fields_readable ?_, nullable_readable fun item member => ?_, by simp⟩
  · simp only [List.forall_mem_cons]
    exact ⟨readable_ofInt _ _, readable_ofInt _ _, readable_ofInt _ _, readable_ofInt _ _, readable_ofInt _ _,
      readable_ofInt _ _, by simp⟩
  · obtain ⟨c, listed, rfl⟩ := List.mem_map.mp member
    exact chunkJson_readable (fun t inside => valid.2 t (List.mem_flatMap.mpr ⟨c, listed, inside⟩)) depth

theorem parse_toJson {e : Export} (valid : ∀ t ∈ e.texts, t.isValid = true)
    (fits : ∀ n ∈ e.numbers, IsInt64 n) : parse? e.toJson.indented = some e := by
  have document := Json.parse_indented (toJson_readable valid 9996)
  rw [parse?, document]
  exact readObject_toJson fits

end Export

end ScriptAtlas
