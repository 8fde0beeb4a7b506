import Mathlib.Data.FinEnum
import ScriptAtlas.Json.Reader
import ScriptAtlas.Json.Writer
import ScriptAtlas.Proofs.Characters
import ScriptAtlas.Proofs.Decimals

/-!
Written JSON reads back. A reader meets each escape, number and container where the writer put it, and
what it has not read yet is what the writer wrote next.
-/

namespace ScriptAtlas.Json

/-! ### Strings -/

def Spells (written : Text) (c : Char) : Prop :=
  ∀ rest, readChars 0 (written ++ rest) =
    (readChars 0 rest).map fun (t, rest) => (String.utf8EncodeChar c ++ t, rest)

theorem readChars_plain {bytes : Text} (plain : ∀ b ∈ bytes, b ≠ 0x22 ∧ b ≠ 0x5C ∧ ¬ b < 0x20) (rest : Text) :
    readChars 0 (bytes ++ rest) = (readChars 0 rest).map fun (t, rest) => (bytes ++ t, rest) := by
  induction bytes with
  | nil =>
      rw [List.nil_append]
      cases readChars 0 rest <;> rfl
  | cons b bytes ih =>
      rw [List.forall_mem_cons] at plain
      obtain ⟨⟨quote, slash, control⟩, plain⟩ := plain
      rw [List.cons_append, readChars.eq_def]
      dsimp only
      rw [if_neg (by simpa using quote), if_neg control, if_neg (by simpa using slash), ih plain,
        Option.map_map]
      rfl

theorem encode_plain {c : Char} (quote : c ≠ '"') (slash : c ≠ '\\') (control : ¬ c.toNat < 0x20) :
    ∀ b ∈ String.utf8EncodeChar c, b ≠ 0x22 ∧ b ≠ 0x5C ∧ ¬ b < 0x20 := by
  intro b member
  have different : ∀ d : Char, c ≠ d → c.toNat ≠ d.toNat := fun d other same => other (Char.toNat_inj.mp same)
  have code : b.toNat = c.toNat ∨ 0x80 ≤ b.toNat := by
    rcases Nat.lt_or_ge c.toNat 0x80 with low | high
    · rw [Text.encode_one low, List.mem_singleton] at member
      rw [member]
      exact .inl (Text.toNat_byte (by omega))
    · exact .inr (Text.le_of_mem_encode high member)
  have noQuote : c.toNat ≠ 0x22 := different '"' quote
  have noSlash : c.toNat ≠ 0x5C := different '\\' slash
  rw [ne_eq, ne_eq, ← UInt8.toNat_inj, ← UInt8.toNat_inj, UInt8.lt_iff_toNat_lt]
  simp only [UInt8.reduceToNat]
  omega

theorem unit_hex {n : Nat} (small : n < 0x10000) :
    ∃ p q r s, Text.hex 4 n = [p, q, r, s] ∧ unit? p q r s = some n := by
  have digits : ∀ d < 16, hexValue? (Text.hexDigit d) = some d := by decide
  refine ⟨_, _, _, _, rfl, ?_⟩
  have first := digits (n / 16 / 16 / 16 % 16) (by omega)
  have second := digits (n / 16 / 16 % 16) (by omega)
  have third := digits (n / 16 % 16) (by omega)
  have fourth := digits (n % 16) (by omega)
  simp only [unit?, first, second, third, fourth, bind, Option.bind, pure]
  congr 1
  omega

theorem spells_unit {c : Char} (small : c.toNat < 0x10000) : Spells ("\\u" ++ Text.hex 4 c.toNat) c := by
  obtain ⟨p, q, r, s, written, unit⟩ := unit_hex small
  have bounds := Text.char_bounds c
  have high : isHighSurrogate c.toNat = false := by
    simp only [isHighSurrogate, Bool.and_eq_false_iff, decide_eq_false_iff_not]
    omega
  have low : isLowSurrogate c.toNat = false := by
    simp only [isLowSurrogate, Bool.and_eq_false_iff, decide_eq_false_iff_not]
    omega
  have char : Text.ofChars [charOfUnit c.toNat] = String.utf8EncodeChar c := by
    rw [charOfUnit, high, low, Char.ofNat_toNat]
    exact List.append_nil _
  intro rest
  rw [written]
  change readChars 0 (0x5C :: 0x75 :: p :: q :: r :: s :: rest) = _
  simp only [readChars, unit, high]
  rw [char]
  rfl

theorem spells_escapeGlyph (c : Char) : Spells (escapeGlyph (.char c)) c := by
  rw [escapeGlyph.eq_def]
  dsimp only
  split
  iterate 7
    · exact fun _ => rfl
  · rename_i quote slash _ _ _ _ _
    split
    · rename_i special
      refine spells_unit ?_
      simp only [Bool.or_eq_true, decide_eq_true_eq, beq_iff_eq] at special
      rcases special with ((((control | rfl) | rfl) | rfl) | rfl) | rfl
      · omega
      all_goals decide
    · rename_i plain
      simp only [Bool.or_eq_true, decide_eq_true_eq, not_or] at plain
      rw [show Text.ofChars [c] = String.utf8EncodeChar c from List.append_nil _]
      exact readChars_plain (encode_plain quote slash plain.1.1.1.1.1)

theorem spells_glyph (g : Text.Glyph) : Spells (escapeGlyph g) g.toChar := by
  cases g with
  | char c => exact spells_escapeGlyph c
  | stray b => exact spells_unit (c := '\uFFFD') (by decide)

/-- The text of a string literal reads back with U+FFFD in place of each stray byte. -/
theorem readString_glyphs (t rest : Text) :
    readString (t.glyphs.flatMap escapeGlyph ++ 0x22 :: rest) = some (t.repaired, rest) := by
  have chars : ∀ gs : List Text.Glyph, readChars 0 (gs.flatMap escapeGlyph ++ 0x22 :: rest) =
      some (Text.ofChars (gs.map Text.Glyph.toChar), rest) := by
    intro gs
    induction gs with
    | nil => rfl
    | cons g gs ih =>
        rw [List.flatMap_cons, List.append_assoc, spells_glyph g, ih, List.map_cons, Text.ofChars_cons]
        rfl
  rw [readString, chars, Option.map_some, ← Text.chars, ← Text.repaired]
  dsimp only
  rw [Text.repaired, Text.repaired, Text.chars_ofChars]

theorem readString_quote {t : Text} (valid : t.isValid = true) (rest : Text) :
    readString (t.glyphs.flatMap escapeGlyph ++ 0x22 :: rest) = some (t, rest) := by
  rw [readString_glyphs, Text.repaired_of_isValid valid]

/-! ### Numbers -/

def Ends (rest : Text) : Prop :=
  ∀ b ∈ rest.head?, Text.isDigit b = false ∧ b ≠ 0x2E ∧ b ≠ 0x65 ∧ b ≠ 0x45

theorem readDigits_append {digits rest : Text} (nonempty : digits ≠ [])
    (each : ∀ b ∈ digits, Text.isDigit b = true) (ends : Ends rest) :
    readDigits (digits ++ rest) = some (digits, rest) := by
  have stop : rest.takeWhile Text.isDigit = [] := by
    cases rest with
    | nil => rfl
    | cons b rest => rw [List.takeWhile_cons, (ends b rfl).1]; rfl
  have taken : (digits ++ rest).takeWhile Text.isDigit = digits := by
    rw [List.takeWhile_append_of_pos each, stop, List.append_nil]
  rw [readDigits, taken, if_neg (by simpa using nonempty), List.drop_left]

theorem readWhole_ofNat (n : Nat) {rest : Text} (ends : Ends rest) :
    readWhole (Text.ofNat n ++ rest) = some (Text.ofNat n, rest) := by
  rcases Nat.eq_zero_or_pos n with rfl | positive
  · rfl
  · obtain ⟨b, more, written, nonzero⟩ := Text.ofNat_head positive
    have read := readDigits_append (Text.ofNat_ne_nil n) (fun b => Text.isDigit_of_mem_ofNat) ends
    rw [written] at read ⊢
    rw [← read, readWhole]
    rintro rest same
    exact nonzero (List.cons.inj same).1

theorem readFraction_of_ends {rest : Text} (ends : Ends rest) : readFraction rest = some ([], rest) := by
  cases rest with
  | nil => rfl
  | cons b rest =>
      rw [readFraction]
      rintro rest same
      exact (ends b rfl).2.1 (List.cons.inj same).1

theorem readExponent_of_ends {rest : Text} (ends : Ends rest) : readExponent rest = some ([], rest) := by
  cases rest with
  | nil => rfl
  | cons b rest =>
      obtain ⟨-, -, lower, upper⟩ := ends b rfl
      rw [readExponent.eq_def]
      exact if_neg (by simp [lower, upper])

theorem readNumber_ofInt (n : Int) {rest : Text} (ends : Ends rest) :
    readNumber (Text.ofInt n ++ rest) = some (Text.ofInt n, rest) := by
  have whole := fun n => readWhole_ofNat n ends
  have fraction := readFraction_of_ends ends
  have exponent := readExponent_of_ends ends
  cases n with
  | ofNat n =>
      obtain ⟨d, digits, written⟩ := List.exists_cons_of_ne_nil (Text.ofNat_ne_nil n)
      have unsigned : d ≠ 0x2D := by
        rintro rfl
        have digit := Text.isDigit_of_mem_ofNat (n := n) (written ▸ List.mem_cons_self)
        revert digit
        decide
      have read := whole n
      rw [Text.ofInt, written] at *
      rw [List.cons_append] at read ⊢
      rw [readNumber.eq_def]
      split
      rename_i sign t front
      split at front
      · rename_i same
        exact absurd (List.cons.inj same).1 unsigned
      · obtain ⟨rfl, rfl⟩ := Prod.mk.inj front
        simp [read, fraction, exponent]
  | negSucc n =>
      simp [Text.ofInt, readNumber, whole, fraction, exponent]

/-! ### Values -/

/-- Values that can be read back with so many levels left: their texts are valid, their numbers whole,
and their containers nested no deeper. -/
def Readable : Nat → Json → Prop
  | _, .null => True
  | _, .bool _ => True
  | _, .number literal => ∃ n : Int, literal = Text.ofInt n
  | _, .string t => t.isValid = true
  | 0, .array _ => False
  | 0, .object _ => False
  | depth + 1, .array items => ∀ item ∈ items, Readable depth item
  | depth + 1, .object members => ∀ m ∈ members, m.1.isValid = true ∧ Readable depth m.2

theorem skipSpace_cons {b : UInt8} (ink : isSpace b = false) (rest : Text) : skipSpace (b :: rest) = b :: rest := by
  rw [skipSpace, List.dropWhile_cons_of_neg (by simp [ink])]

theorem skipSpace_newLine (level : Nat) (rest : Text) : skipSpace (newLine level ++ rest) = skipSpace rest := by
  refine List.dropWhile_append_of_pos fun b member => ?_
  rcases List.mem_cons.mp member with rfl | blank
  · decide
  · rw [List.eq_of_mem_replicate blank]
    decide

theorem ends_cons {b : UInt8} (listed : b ∈ [0x0A, 0x2C, 0x5D, 0x7D]) (rest : Text) : Ends (b :: rest) := by
  have each : ∀ b ∈ ([0x0A, 0x2C, 0x5D, 0x7D] : List UInt8),
      Text.isDigit b = false ∧ b ≠ 0x2E ∧ b ≠ 0x65 ∧ b ≠ 0x45 := by
    decide +kernel
  rintro x ⟨⟩
  exact each b listed

theorem number_head (n : Int) : ∃ b rest, Text.ofInt n = b :: rest ∧ (Text.isDigit b = true ∨ b = 0x2D) := by
  cases n with
  | ofNat n =>
      obtain ⟨d, digits, written⟩ := List.exists_cons_of_ne_nil (Text.ofNat_ne_nil n)
      exact ⟨d, digits, written, .inl (Text.isDigit_of_mem_ofNat (written ▸ List.mem_cons_self))⟩
  | negSucc n => exact ⟨0x2D, Text.ofNat (n + 1), rfl, .inr rfl⟩

theorem indentedAt_head {depth : Nat} {j : Json} (readable : j.Readable depth) (level : Nat) :
    ∃ b rest, indentedAt level j = b :: rest ∧ isSpace b = false ∧ b ≠ 0x5D := by
  cases j with
  | null => exact ⟨_, _, rfl, by decide, by decide⟩
  | bool b => cases b <;> exact ⟨_, _, rfl, by decide, by decide⟩
  | number literal =>
      have ink : ∀ b : UInt8, Text.isDigit b = true ∨ b = 0x2D → isSpace b = false ∧ b ≠ 0x5D := by
        decide +kernel
      obtain ⟨n, rfl⟩ : ∃ n : Int, literal = Text.ofInt n := by
        cases depth <;> exact readable
      obtain ⟨b, rest, written, digit⟩ := number_head n
      exact ⟨b, rest, written, ink b digit⟩
  | string t => exact ⟨0x22, _, rfl, by decide, by decide⟩
  | array items =>
      rw [indentedAt]
      split <;> exact ⟨0x5B, _, rfl, by decide, by decide⟩
  | object members =>
      rw [indentedAt]
      split <;> exact ⟨0x7B, _, rfl, by decide, by decide⟩

/-- A value as it stands at a level reads back, and the reader stops right after it. -/
def Reads (depth level : Nat) (j : Json) : Prop :=
  ∀ steps rest, 2 * (indentedAt level j).length ≤ steps → Ends rest →
    readValue steps depth (indentedAt level j ++ rest) = some (j, rest)

theorem skipSpace_written {depth : Nat} {j : Json} (readable : j.Readable depth) (level : Nat) (rest : Text) :
    skipSpace (indentedAt level j ++ rest) = indentedAt level j ++ rest := by
  obtain ⟨b, more, written, ink, -⟩ := indentedAt_head readable level
  rw [written]
  exact skipSpace_cons ink _

theorem indentedItems_cons (level : Nat) (item next : Json) (items : List Json) :
    indentedItems level (item :: next :: items) =
      newLine level ++ indentedAt level item ++ 0x2C :: indentedItems level (next :: items) := by
  rw [indentedItems]
  · exact List.append_assoc _ _ _
  · simp

theorem indentedMembers_cons (level : Nat) (name : Text) (value : Json) (next : Text × Json)
    (members : List (Text × Json)) :
    indentedMembers level ((name, value) :: next :: members) =
      newLine level ++ (quote name ++ 0x3A :: 0x20 :: indentedAt level value ++
        0x2C :: indentedMembers level (next :: members)) := by
  rw [indentedMembers]
  · simp only [List.append_assoc]
    rfl
  · simp

theorem readItems_written {depth level : Nat} {items : List Json} (nonempty : items ≠ [])
    (readable : ∀ item ∈ items, item.Readable depth) (reads : ∀ item ∈ items, Reads depth level item)
    (steps : Nat) (room : 2 * (indentedItems level items).length + 1 ≤ steps) (outer : Nat) (rest : Text) :
    readItems steps depth (skipSpace (indentedItems level items ++ (newLine outer ++ 0x5D :: rest))) =
      some (items, rest) := by
  induction items generalizing steps with
  | nil => exact absurd rfl nonempty
  | cons item items ih =>
      rw [List.forall_mem_cons] at readable reads
      obtain ⟨steps, rfl⟩ : ∃ fewer, steps = fewer + 1 := ⟨steps - 1, by omega⟩
      cases items with
      | nil =>
          rw [indentedItems] at room ⊢
          have read := reads.1 steps (newLine outer ++ 0x5D :: rest) (by simp at room; omega)
            (ends_cons (by decide) _)
          rw [List.append_assoc, skipSpace_newLine, skipSpace_written readable.1 level, readItems, read]
          dsimp only
          rw [skipSpace_newLine, skipSpace_cons (by decide)]
          rfl
      | cons next items =>
          rw [indentedItems_cons] at room ⊢
          simp only [List.length_append, List.length_cons] at room
          have read := reads.1 steps
            (0x2C :: (indentedItems level (next :: items) ++ (newLine outer ++ 0x5D :: rest)))
            (by omega) (ends_cons (by decide) _)
          have later := ih (List.cons_ne_nil _ _) readable.2 reads.2 steps (by omega)
          rw [List.append_assoc, List.append_assoc, skipSpace_newLine, List.cons_append,
            skipSpace_written readable.1 level, readItems, read]
          dsimp only
          rw [skipSpace_cons (by decide)]
          exact congrArg (Option.map _) later

theorem readMembers_front {depth' : Nat} (steps depth level : Nat) {name : Text} {value : Json}
    (valid : name.isValid = true) (readable : value.Readable depth') (after : Text) :
    readMembers (steps + 1) depth
        (skipSpace (newLine level ++ (quote name ++ 0x3A :: 0x20 :: indentedAt level value ++ after))) =
      match readValue steps depth (indentedAt level value ++ after) with
      | none => none
      | some (value, rest) =>
        match skipSpace rest with
        | 0x7D :: rest => some ([(name, value)], rest)
        | 0x2C :: rest =>
          (readMembers steps depth (skipSpace rest)).map fun (members, rest) =>
            ((name, value) :: members, rest)
        | _ => none := by
  have text : quote name ++ 0x3A :: 0x20 :: indentedAt level value ++ after =
      0x22 :: (name.glyphs.flatMap escapeGlyph ++
        0x22 :: 0x3A :: 0x20 :: (indentedAt level value ++ after)) := by
    simp only [quote, List.append_assoc]
    rfl
  have blank : skipSpace (0x20 :: (indentedAt level value ++ after)) =
      indentedAt level value ++ after :=
    skipSpace_written readable level after
  rw [text, skipSpace_newLine, skipSpace_cons (by decide), readMembers]
  dsimp only
  rw [readString_quote valid]
  dsimp only
  rw [skipSpace_cons (by decide)]
  conv_rhs => rw [← blank]
  rfl

theorem readMembers_written {depth level : Nat} {members : List (Text × Json)} (nonempty : members ≠ [])
    (readable : ∀ m ∈ members, m.1.isValid = true ∧ m.2.Readable depth)
    (reads : ∀ m ∈ members, Reads depth level m.2) (steps : Nat)
    (room : 2 * (indentedMembers level members).length + 1 ≤ steps) (outer : Nat) (rest : Text) :
    readMembers steps depth (skipSpace (indentedMembers level members ++ (newLine outer ++ 0x7D :: rest))) =
      some (members, rest) := by
  induction members generalizing steps with
  | nil => exact absurd rfl nonempty
  | cons m members ih =>
      obtain ⟨name, value⟩ := m
      rw [List.forall_mem_cons] at readable reads
      obtain ⟨⟨valid, here⟩, readable⟩ := readable
      obtain ⟨steps, rfl⟩ : ∃ fewer, steps = fewer + 1 := ⟨steps - 1, by omega⟩
      have reading : Reads depth level value := reads.1
      have front := readMembers_front steps depth level valid here
      cases members with
      | nil =>
          rw [indentedMembers, List.append_assoc, List.append_assoc] at room
          have read := reading steps (newLine outer ++ 0x7D :: rest) (by simp at room; omega)
            (ends_cons (by decide) _)
          have shape : indentedMembers level [(name, value)] ++ (newLine outer ++ 0x7D :: rest) =
              newLine level ++ (quote name ++ 0x3A :: 0x20 :: indentedAt level value ++
                (newLine outer ++ 0x7D :: rest)) := by
            simp only [indentedMembers, List.append_assoc]
            rfl
          rw [shape, front, read]
          dsimp only
          rw [skipSpace_newLine, skipSpace_cons (by decide)]
          rfl
      | cons next members =>
          rw [indentedMembers_cons] at room ⊢
          simp only [List.length_append, List.length_cons] at room
          have read := reading steps
            (0x2C :: (indentedMembers level (next :: members) ++ (newLine outer ++ 0x7D :: rest)))
            (by omega) (ends_cons (by decide) _)
          -- A comma follows the value, and the members behind it are read with the steps left.
          have later := ih (List.cons_ne_nil _ _) readable reads.2 steps (by omega)
          rw [List.append_assoc, List.append_assoc, List.cons_append, front, read]
          dsimp only
          rw [skipSpace_cons (by decide)]
          exact congrArg (Option.map _) later

theorem indentedAt_array (level : Nat) (item : Json) (items : List Json) (rest : Text) :
    indentedAt level (.array (item :: items)) ++ rest =
      0x5B :: (indentedItems (level + 1) (item :: items) ++ (newLine level ++ 0x5D :: rest)) := by
  rw [indentedAt, if_neg (by simp)]
  simp only [List.append_assoc]
  rfl

theorem indentedAt_object (level : Nat) (m : Text × Json) (members : List (Text × Json)) (rest : Text) :
    indentedAt level (.object (m :: members)) ++ rest =
      0x7B :: (indentedMembers (level + 1) (m :: members) ++ (newLine level ++ 0x7D :: rest)) := by
  rw [indentedAt, if_neg (by simp)]
  simp only [List.append_assoc]
  rfl

theorem indentedItems_front (level : Nat) (item : Json) (items : List Json) :
    ∃ after, indentedItems level (item :: items) = newLine level ++ (indentedAt level item ++ after) := by
  cases items with
  | nil => exact ⟨[], by rw [indentedItems, List.append_nil]⟩
  | cons next items => exact ⟨_, by rw [indentedItems_cons, List.append_assoc]⟩

theorem indentedMembers_front (level : Nat) (m : Text × Json) (members : List (Text × Json)) :
    ∃ after, indentedMembers level (m :: members) = newLine level ++ 0x22 :: after := by
  obtain ⟨name, value⟩ := m
  cases members with
  | nil =>
      rw [indentedMembers, List.append_assoc, List.append_assoc]
      exact ⟨_, rfl⟩
  | cons next members => exact ⟨_, indentedMembers_cons level name value next members⟩

theorem readValue_bracket (steps depth : Nat) (t : Text) :
    readValue (steps + 1) (depth + 1) (0x5B :: t) =
      match skipSpace t with
      | 0x5D :: rest => some (.array [], rest)
      | rest => (readItems steps depth rest).map fun (items, rest) => (.array items, rest) := by
  rw [readValue.eq_def]
  rfl

theorem readValue_brace (steps depth : Nat) (t : Text) :
    readValue (steps + 1) (depth + 1) (0x7B :: t) =
      match skipSpace t with
      | 0x7D :: rest => some (.object [], rest)
      | rest => (readMembers steps depth rest).map fun (members, rest) => (.object members, rest) := by
  rw [readValue.eq_def]
  rfl

theorem readValue_items {steps depth : Nat} {t : Text} (other : (skipSpace t).head? ≠ some 0x5D) :
    readValue (steps + 1) (depth + 1) (0x5B :: t) =
      (readItems steps depth (skipSpace t)).map fun (items, rest) => (.array items, rest) := by
  rw [readValue_bracket]
  split
  · rename_i rest same
    rw [same] at other
    exact absurd rfl other
  · rfl

theorem readValue_members {steps depth : Nat} {t : Text} (other : (skipSpace t).head? ≠ some 0x7D) :
    readValue (steps + 1) (depth + 1) (0x7B :: t) =
      (readMembers steps depth (skipSpace t)).map fun (members, rest) => (.object members, rest) := by
  rw [readValue_brace]
  split
  · rename_i rest same
    rw [same] at other
    exact absurd rfl other
  · rfl

theorem readValue_number (steps depth : Nat) (n : Int) {rest : Text} (ends : Ends rest) :
    readValue (steps + 1) depth (Text.ofInt n ++ rest) = some (.number (Text.ofInt n), rest) := by
  have letters : ∀ b : UInt8, Text.isDigit b = true ∨ b = 0x2D →
      b ≠ 0x22 ∧ b ≠ 0x5B ∧ b ≠ 0x7B ∧ b ≠ 0x6E ∧ b ≠ 0x74 ∧ b ≠ 0x66 := by
    decide +kernel
  obtain ⟨b, more, written, digit⟩ := number_head n
  have read := readNumber_ofInt n ends
  rw [written, List.cons_append] at read ⊢
  obtain ⟨quote, bracket, brace, isNull, isTrue, isFalse⟩ := letters b digit
  have word : ∀ first letters, b ≠ first →
      Text.startsWith (b :: (more ++ rest)) (first :: letters) = false := by
    intro first letters other
    simp [Text.startsWith, List.isPrefixOf, Ne.symm other]
  have noNull : ¬ Text.startsWith (b :: (more ++ rest)) "null" = true := by
    rw [show Text.ofString "null" = [0x6E, 0x75, 0x6C, 0x6C] from rfl, word _ _ isNull]
    decide
  have noTrue : ¬ Text.startsWith (b :: (more ++ rest)) "true" = true := by
    rw [show Text.ofString "true" = [0x74, 0x72, 0x75, 0x65] from rfl, word _ _ isTrue]
    decide
  have noFalse : ¬ Text.startsWith (b :: (more ++ rest)) "false" = true := by
    rw [show Text.ofString "false" = [0x66, 0x61, 0x6C, 0x73, 0x65] from rfl, word _ _ isFalse]
    decide
  rw [readValue.eq_def]
  dsimp only
  rw [if_neg (by simpa using quote), if_neg (by simpa using bracket), if_neg (by simpa using brace),
    if_neg noNull, if_neg noTrue, if_neg noFalse, read]
  rfl

theorem reads_scalar {depth : Nat} {j : Json} (readable : j.Readable 0) (level : Nat) : Reads depth level j := by
  intro steps rest room ends
  obtain ⟨b, more, written, -, -⟩ := indentedAt_head readable level
  obtain ⟨steps, rfl⟩ : ∃ fewer, steps = fewer + 1 := ⟨steps - 1, by simp [written] at room; omega⟩
  cases j with
  | null => rfl
  | bool b => cases b <;> rfl
  | number literal =>
      obtain ⟨n, rfl⟩ := readable
      exact readValue_number steps depth n ends
  | string t =>
      have read := readString_quote readable rest
      have text : quote t ++ rest = 0x22 :: (t.glyphs.flatMap escapeGlyph ++ 0x22 :: rest) := by
        simp only [quote, List.append_assoc]
        rfl
      change readValue (steps + 1) depth (quote t ++ rest) = _
      rw [text]
      exact congrArg (Option.map fun (s, rest) => (Json.string s, rest)) read
  | array items => cases readable
  | object members => cases readable

theorem reads_array {depth level : Nat} {items : List Json} (readable : ∀ item ∈ items, item.Readable depth)
    (reads : ∀ item ∈ items, Reads depth (level + 1) item) : Reads (depth + 1) level (.array items) := by
  intro steps rest room ends
  cases items with
  | nil =>
      have some : 4 ≤ steps := room
      obtain ⟨steps, rfl⟩ : ∃ fewer, steps = fewer + 1 := ⟨steps - 1, by omega⟩
      rfl
  | cons item items =>
      have text := indentedAt_array level item items
      have size := congrArg List.length (text [])
      simp only [List.append_nil, List.length_cons, List.length_append] at size
      obtain ⟨steps, rfl⟩ : ∃ fewer, steps = fewer + 1 := ⟨steps - 1, by omega⟩
      obtain ⟨after, front⟩ := indentedItems_front (level + 1) item items
      obtain ⟨b, more, written, ink, other⟩ :=
        indentedAt_head (readable item List.mem_cons_self) (level + 1)
      have begun : (skipSpace (indentedItems (level + 1) (item :: items) ++
          (newLine level ++ 0x5D :: rest))).head? ≠ some 0x5D := by
        rw [front, List.append_assoc, skipSpace_newLine, List.append_assoc, written, List.cons_append,
          skipSpace_cons ink]
        exact fun same => other (Option.some.inj same)
      have read := readItems_written (List.cons_ne_nil item items) readable reads steps (by omega)
        level rest
      rw [text, readValue_items begun, read]
      rfl

theorem reads_object {depth level : Nat} {members : List (Text × Json)}
    (readable : ∀ m ∈ members, m.1.isValid = true ∧ m.2.Readable depth)
    (reads : ∀ m ∈ members, Reads depth (level + 1) m.2) : Reads (depth + 1) level (.object members) := by
  intro steps rest room ends
  cases members with
  | nil =>
      have some : 4 ≤ steps := room
      obtain ⟨steps, rfl⟩ : ∃ fewer, steps = fewer + 1 := ⟨steps - 1, by omega⟩
      rfl
  | cons m members =>
      have text := indentedAt_object level m members
      have size := congrArg List.length (text [])
      simp only [List.append_nil, List.length_cons, List.length_append] at size
      obtain ⟨steps, rfl⟩ : ∃ fewer, steps = fewer + 1 := ⟨steps - 1, by omega⟩
      obtain ⟨after, front⟩ := indentedMembers_front (level + 1) m members
      have begun : (skipSpace (indentedMembers (level + 1) (m :: members) ++
          (newLine level ++ 0x7D :: rest))).head? ≠ some 0x7D := by
        rw [front, List.append_assoc, skipSpace_newLine, List.cons_append, skipSpace_cons (by decide),
          List.head?_cons]
        decide
      have read := readMembers_written (List.cons_ne_nil m members) readable reads steps
        (by omega) level rest
      rw [text, readValue_members begun, read]
      rfl

theorem reads_of_readable {depth : Nat} {j : Json} (readable : j.Readable depth) (level : Nat) :
    Reads depth level j := by
  induction depth generalizing j level with
  | zero => exact reads_scalar readable level
  | succ depth ih =>
      cases j with
      | array items =>
          have each : ∀ item ∈ items, item.Readable depth := readable
          exact reads_array each fun item member => ih (each item member) (level + 1)
      | object members =>
          have each : ∀ m ∈ members, m.1.isValid = true ∧ m.2.Readable depth := readable
          exact reads_object each fun m member => ih (each m member).2 (level + 1)
      | _ =>
          refine reads_scalar ?_ level
          exact readable

/-- What is written over several lines reads back as the same value. -/
theorem parse_indented {j : Json} (readable : j.Readable maxDepth) : parse? j.indented = some j := by
  have read := reads_of_readable readable 0 (2 * (indentedAt 0 j).length + 2) [] (by omega)
    (fun b none => by cases none)
  have front := skipSpace_written readable 0 []
  rw [List.append_nil] at read front
  rw [parse?, indented, front, read]
  rfl

end ScriptAtlas.Json
