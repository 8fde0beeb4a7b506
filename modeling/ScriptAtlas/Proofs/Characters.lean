import Mathlib.Data.UInt
import ScriptAtlas.Text.Basic

/-!
Characters and their bytes. What is written for a sequence of characters reads back as these
characters, and a text all of whose bytes belong to characters is written so.
-/

namespace ScriptAtlas.Text

/-! ### One character -/

theorem char_bounds (c : Char) : c.toNat < 0xD800 ∨ 0xDFFF < c.toNat ∧ c.toNat < 0x110000 :=
  c.valid

theorem toNat_charOfNat {n : Nat} (valid : n < 0xD800 ∨ 0xDFFF < n ∧ n < 0x110000) :
    (Char.ofNat n).toNat = n := by
  rw [Char.ofNat, dif_pos valid]
  rfl

theorem toNat_byte {n : Nat} (small : n < 256) : (UInt8.ofNat n).toNat = n := by
  simpa using small

theorem isContinuation_iff (b : UInt8) :
    isContinuation b = true ↔ 0x80 ≤ b.toNat ∧ b.toNat ≤ 0xBF := by
  simp [isContinuation, UInt8.le_iff_toNat_le]

theorem isSecond_iff (b c : UInt8) : isSecond b c = true ↔
    0x80 ≤ c.toNat ∧ c.toNat ≤ 0xBF ∧ (b.toNat = 0xE0 → 0xA0 ≤ c.toNat) ∧
      (b.toNat = 0xED → c.toNat ≤ 0x9F) ∧ (b.toNat = 0xF0 → 0x90 ≤ c.toNat) ∧
      (b.toNat = 0xF4 → c.toNat ≤ 0x8F) := by
  simp only [isSecond, beq_iff_eq, ← UInt8.toNat_inj, UInt8.reduceToNat]
  repeat' split
  all_goals
    simp only [isContinuation_iff, Bool.and_eq_true, decide_eq_true_eq, UInt8.le_iff_toNat_le,
      UInt8.reduceToNat]
    omega

section Lead

variable {b c d e : UInt8} {rest : Text}

theorem leadingChar_one (low : b.toNat < 0x80) : leadingChar b rest = some (Char.ofNat b.toNat, 0) := by
  unfold leadingChar
  exact if_pos (UInt8.lt_iff_toNat_lt.mpr low)

theorem leadingChar_two (lead : 0xC2 ≤ b.toNat ∧ b.toNat ≤ 0xDF) :
    leadingChar b (c :: rest) = if isContinuation c then
      some (Char.ofNat ((b.toNat - 0xC0) * 64 + (c.toNat - 0x80)), 1) else none := by
  simp only [leadingChar, UInt8.lt_iff_toNat_lt, UInt8.le_iff_toNat_le, UInt8.reduceToNat,
    Bool.and_eq_true, decide_eq_true_eq]
  rw [if_neg (by omega), if_pos (by omega)]

theorem leadingChar_three (lead : 0xE0 ≤ b.toNat ∧ b.toNat ≤ 0xEF) :
    leadingChar b (c :: d :: rest) = if isSecond b c && isContinuation d then
      some (Char.ofNat ((b.toNat - 0xE0) * 4096 + (c.toNat - 0x80) * 64 + (d.toNat - 0x80)), 2)
      else none := by
  simp only [leadingChar, UInt8.lt_iff_toNat_lt, UInt8.le_iff_toNat_le, UInt8.reduceToNat,
    Bool.and_eq_true, decide_eq_true_eq]
  rw [if_neg (by omega), if_neg (by omega), if_pos (by omega)]

theorem leadingChar_four (lead : 0xF0 ≤ b.toNat ∧ b.toNat ≤ 0xF4) :
    leadingChar b (c :: d :: e :: rest) =
      if isSecond b c && isContinuation d && isContinuation e then
        some (Char.ofNat ((b.toNat - 0xF0) * 262144 + (c.toNat - 0x80) * 4096 +
          (d.toNat - 0x80) * 64 + (e.toNat - 0x80)), 3)
      else none := by
  simp only [leadingChar, UInt8.lt_iff_toNat_lt, UInt8.le_iff_toNat_le, UInt8.reduceToNat,
    Bool.and_eq_true, decide_eq_true_eq]
  rw [if_neg (by omega), if_neg (by omega), if_neg (by omega), if_pos (by omega)]

end Lead

section Encode

variable {c : Char}

theorem encode_one (low : c.toNat < 0x80) : String.utf8EncodeChar c = [UInt8.ofNat c.toNat] := by
  rw [String.utf8EncodeChar]
  exact if_pos (by change c.toNat ≤ 127; omega)

theorem encode_two (low : 0x80 ≤ c.toNat) (high : c.toNat < 0x800) :
    String.utf8EncodeChar c =
      [UInt8.ofNat (c.toNat / 64 + 0xC0), UInt8.ofNat (c.toNat % 64 + 0x80)] := by
  have whole : c.toNat / 64 % 32 = c.toNat / 64 := by omega
  rw [String.utf8EncodeChar]
  change (if c.toNat ≤ 127 then _ else if c.toNat ≤ 2047 then
    [UInt8.ofNat (c.toNat / 64 % 32 + 192), _] else _) = _
  rw [if_neg (by omega), if_pos (by omega), whole]
  rfl

theorem encode_three (low : 0x800 ≤ c.toNat) (high : c.toNat < 0x10000) :
    String.utf8EncodeChar c = [UInt8.ofNat (c.toNat / 4096 + 0xE0),
      UInt8.ofNat (c.toNat / 64 % 64 + 0x80), UInt8.ofNat (c.toNat % 64 + 0x80)] := by
  have whole : c.toNat / 4096 % 16 = c.toNat / 4096 := by omega
  rw [String.utf8EncodeChar]
  change (if c.toNat ≤ 127 then _ else if c.toNat ≤ 2047 then _ else if c.toNat ≤ 65535 then
    [UInt8.ofNat (c.toNat / 4096 % 16 + 224), _, _] else _) = _
  rw [if_neg (by omega), if_neg (by omega), if_pos (by omega), whole]
  rfl

theorem encode_four (low : 0x10000 ≤ c.toNat) :
    String.utf8EncodeChar c = [UInt8.ofNat (c.toNat / 262144 + 0xF0),
      UInt8.ofNat (c.toNat / 4096 % 64 + 0x80), UInt8.ofNat (c.toNat / 64 % 64 + 0x80),
      UInt8.ofNat (c.toNat % 64 + 0x80)] := by
  have bounds := char_bounds c
  have whole : c.toNat / 262144 % 8 = c.toNat / 262144 := by omega
  rw [String.utf8EncodeChar]
  change (if c.toNat ≤ 127 then _ else if c.toNat ≤ 2047 then _ else if c.toNat ≤ 65535 then _ else
    [UInt8.ofNat (c.toNat / 262144 % 8 + 240), _, _, _]) = _
  rw [if_neg (by omega), if_neg (by omega), if_neg (by omega), whole]
  rfl

end Encode

theorem leadingChar_encode (c : Char) (rest : Text) : ∃ b more, String.utf8EncodeChar c = b :: more ∧
    leadingChar b (more ++ rest) = some (c, more.length) := by
  have bounds := char_bounds c
  have read : ∀ {n}, n = c.toNat → Char.ofNat n = c := by
    rintro n rfl
    exact Char.ofNat_toNat c
  rcases Nat.lt_or_ge c.toNat 0x80 with one | high
  · have lead := toNat_byte (n := c.toNat) (by omega)
    exact ⟨_, _, encode_one one, by
      rw [leadingChar_one (by omega), lead, read rfl]; rfl⟩
  rcases Nat.lt_or_ge c.toNat 0x800 with two | high'
  · have lead := toNat_byte (n := c.toNat / 64 + 0xC0) (by omega)
    have second := toNat_byte (n := c.toNat % 64 + 0x80) (by omega)
    refine ⟨_, _, encode_two high two, ?_⟩
    rw [List.cons_append, leadingChar_two (by omega), if_pos ((isContinuation_iff _).mpr (by omega)),
      read (by omega)]
    rfl
  rcases Nat.lt_or_ge c.toNat 0x10000 with three | high''
  · have lead := toNat_byte (n := c.toNat / 4096 + 0xE0) (by omega)
    have second := toNat_byte (n := c.toNat / 64 % 64 + 0x80) (by omega)
    have third := toNat_byte (n := c.toNat % 64 + 0x80) (by omega)
    refine ⟨_, _, encode_three high' three, ?_⟩
    rw [List.cons_append, List.cons_append, leadingChar_three (by omega), if_pos, read (by omega)]
    · rfl
    · rw [Bool.and_eq_true, isSecond_iff, isContinuation_iff]
      omega
  · have lead := toNat_byte (n := c.toNat / 262144 + 0xF0) (by omega)
    have second := toNat_byte (n := c.toNat / 4096 % 64 + 0x80) (by omega)
    have third := toNat_byte (n := c.toNat / 64 % 64 + 0x80) (by omega)
    have fourth := toNat_byte (n := c.toNat % 64 + 0x80) (by omega)
    refine ⟨_, _, encode_four high'', ?_⟩
    rw [List.cons_append, List.cons_append, List.cons_append, leadingChar_four (by omega), if_pos,
      read (by omega)]
    · rfl
    · rw [Bool.and_eq_true, Bool.and_eq_true, isSecond_iff, isContinuation_iff, isContinuation_iff]
      omega

theorem byte_eq {b : UInt8} {n : Nat} (same : n = b.toNat) : UInt8.ofNat n = b := by
  rw [same, UInt8.ofNat_toNat]

theorem encode_of_leadingChar (b : UInt8) (rest : Text) (c : Char) (count : Nat)
    (read : leadingChar b rest = some (c, count)) :
    ∃ more tail, rest = more ++ tail ∧ more.length = count ∧ String.utf8EncodeChar c = b :: more := by
  unfold leadingChar at read
  simp only [UInt8.lt_iff_toNat_lt, UInt8.le_iff_toNat_le, UInt8.reduceToNat, Bool.and_eq_true,
    decide_eq_true_eq] at read
  split at read
  · rename_i low
    obtain ⟨rfl, rfl⟩ : Char.ofNat b.toNat = c ∧ 0 = count := by simpa using read
    have code := toNat_charOfNat (n := b.toNat) (by omega)
    refine ⟨[], rest, rfl, rfl, ?_⟩
    rw [encode_one (by omega), byte_eq code]
  split at read
  · rename_i lead
    split at read
    · rename_i second tail
      split at read
      · rename_i continued
        rw [isContinuation_iff] at continued
        obtain ⟨rfl, rfl⟩ := by simpa using read
        have code := toNat_charOfNat
          (n := (b.toNat - 0xC0) * 64 + (second.toNat - 0x80)) (by omega)
        refine ⟨[second], tail, rfl, rfl, ?_⟩
        rw [encode_two (by omega) (by omega), byte_eq (b := b) (by omega), byte_eq (b := second) (by omega)]
      · cases read
    · cases read
  split at read
  · rename_i lead
    split at read
    · rename_i second third tail
      split at read
      · rename_i continued
        rw [isSecond_iff, isContinuation_iff] at continued
        obtain ⟨rfl, rfl⟩ := by simpa using read
        have code := toNat_charOfNat (n := (b.toNat - 0xE0) * 4096 + (second.toNat - 0x80) * 64 +
          (third.toNat - 0x80)) (by omega)
        refine ⟨[second, third], tail, rfl, rfl, ?_⟩
        rw [encode_three (by omega) (by omega), byte_eq (b := b) (by omega),
          byte_eq (b := second) (by omega), byte_eq (b := third) (by omega)]
      · cases read
    · cases read
  split at read
  · rename_i lead
    split at read
    · rename_i second third fourth tail
      split at read
      · rename_i continued
        rw [isSecond_iff, isContinuation_iff, isContinuation_iff] at continued
        obtain ⟨rfl, rfl⟩ := by simpa using read
        have code := toNat_charOfNat (n := (b.toNat - 0xF0) * 262144 + (second.toNat - 0x80) * 4096 +
          (third.toNat - 0x80) * 64 + (fourth.toNat - 0x80)) (by omega)
        refine ⟨[second, third, fourth], tail, rfl, rfl, ?_⟩
        rw [encode_four (by omega), byte_eq (b := b) (by omega), byte_eq (b := second) (by omega),
          byte_eq (b := third) (by omega), byte_eq (b := fourth) (by omega)]
      · cases read
    · cases read
  · cases read

/-! ### Texts -/

theorem glyphsFrom_drop (skip : Nat) (t : Text) : glyphsFrom skip t = glyphs (t.drop skip) := by
  induction skip generalizing t with
  | zero => rfl
  | succ skip ih =>
      cases t with
      | nil => rfl
      | cons b rest => exact ih rest

theorem glyphs_encode (c : Char) (rest : Text) :
    glyphs (String.utf8EncodeChar c ++ rest) = .char c :: glyphs rest := by
  obtain ⟨b, more, written, read⟩ := leadingChar_encode c rest
  rw [written, List.cons_append, glyphs, glyphsFrom, read]
  dsimp only
  rw [glyphsFrom_drop, List.drop_left]

theorem glyphs_ofChars_append (cs : List Char) (rest : Text) :
    glyphs (ofChars cs ++ rest) = cs.map .char ++ glyphs rest := by
  induction cs with
  | nil => rfl
  | cons c cs ih =>
      rw [ofChars, List.flatMap_cons, List.append_assoc, glyphs_encode, ← ofChars, ih]
      rfl

theorem glyphs_ofChars (cs : List Char) : glyphs (ofChars cs) = cs.map .char := by
  have read := glyphs_ofChars_append cs []
  rwa [List.append_nil, show glyphs [] = [] from rfl, List.append_nil] at read

theorem chars_ofChars (cs : List Char) : chars (ofChars cs) = cs := by
  rw [chars, glyphs_ofChars, List.map_map]
  exact List.map_id cs

@[simp] theorem ofChars_append (cs ds : List Char) : ofChars (cs ++ ds) = ofChars cs ++ ofChars ds :=
  List.flatMap_append

theorem ofChars_cons (c : Char) (cs : List Char) :
    ofChars (c :: cs) = String.utf8EncodeChar c ++ ofChars cs :=
  List.flatMap_cons

theorem isValid_encode_append (c : Char) (rest : Text) :
    isValid (String.utf8EncodeChar c ++ rest) = isValid rest := by
  rw [isValid, glyphs_encode]
  rfl

/-- Texts are built up from characters and from bytes at which none begins. -/
@[elab_as_elim] theorem glyphs_induction {motive : Text → Prop} (nil : motive [])
    (char : ∀ c rest, motive rest → motive (String.utf8EncodeChar c ++ rest))
    (stray : ∀ b rest, leadingChar b rest = none → motive rest → motive (b :: rest)) (t : Text) :
    motive t := by
  induction size : t.length using Nat.strong_induction_on generalizing t with
  | _ n ih =>
    cases t with
    | nil => exact nil
    | cons b rest =>
        rw [List.length_cons] at size
        cases read : leadingChar b rest with
        | none => exact stray b rest read (ih rest.length (by omega) rest rfl)
        | some found =>
            obtain ⟨c, count⟩ := found
            obtain ⟨more, tail, rfl, -, written⟩ := encode_of_leadingChar b rest c count read
            rw [List.length_append] at size
            rw [← List.cons_append, ← written]
            exact char c tail (ih tail.length (by omega) tail rfl)

theorem glyphs_stray {b : UInt8} {rest : Text} (alone : leadingChar b rest = none) :
    glyphs (b :: rest) = .stray b :: glyphs rest := by
  rw [glyphs, glyphsFrom, alone]
  rfl

theorem isValid_iff (t : Text) : t.isValid = true ↔ ∃ cs, t = ofChars cs := by
  constructor
  · intro valid
    induction t using glyphs_induction with
    | nil => exact ⟨[], rfl⟩
    | char c rest ih =>
        rw [isValid_encode_append] at valid
        obtain ⟨cs, rfl⟩ := ih valid
        exact ⟨c :: cs, (ofChars_cons c cs).symm⟩
    | stray b rest alone ih => simp [isValid, glyphs_stray alone] at valid
  · rintro ⟨cs, rfl⟩
    simp [isValid, glyphs_ofChars]

theorem isValid_append {s t : Text} (first : s.isValid = true) (second : t.isValid = true) :
    (s ++ t).isValid = true := by
  obtain ⟨cs, rfl⟩ := (isValid_iff s).mp first
  obtain ⟨ds, rfl⟩ := (isValid_iff t).mp second
  exact (isValid_iff _).mpr ⟨cs ++ ds, (ofChars_append cs ds).symm⟩

theorem repaired_of_isValid {t : Text} (valid : t.isValid = true) : t.repaired = t := by
  obtain ⟨cs, rfl⟩ := (isValid_iff t).mp valid
  rw [repaired, chars_ofChars]

theorem le_of_mem_encode {c : Char} (high : 0x80 ≤ c.toNat) {b : UInt8}
    (member : b ∈ String.utf8EncodeChar c) : 0x80 ≤ b.toNat := by
  have bounds := char_bounds c
  rcases Nat.lt_or_ge c.toNat 0x800 with two | high'
  · rw [encode_two high two] at member
    have lead := toNat_byte (n := c.toNat / 64 + 0xC0) (by omega)
    have second := toNat_byte (n := c.toNat % 64 + 0x80) (by omega)
    simp only [List.mem_cons, List.not_mem_nil, or_false] at member
    rcases member with rfl | rfl <;> omega
  rcases Nat.lt_or_ge c.toNat 0x10000 with three | high''
  · rw [encode_three high' three] at member
    have lead := toNat_byte (n := c.toNat / 4096 + 0xE0) (by omega)
    have second := toNat_byte (n := c.toNat / 64 % 64 + 0x80) (by omega)
    have third := toNat_byte (n := c.toNat % 64 + 0x80) (by omega)
    simp only [List.mem_cons, List.not_mem_nil, or_false] at member
    rcases member with rfl | rfl | rfl <;> omega
  · rw [encode_four high''] at member
    have lead := toNat_byte (n := c.toNat / 262144 + 0xF0) (by omega)
    have second := toNat_byte (n := c.toNat / 4096 % 64 + 0x80) (by omega)
    have third := toNat_byte (n := c.toNat / 64 % 64 + 0x80) (by omega)
    have fourth := toNat_byte (n := c.toNat % 64 + 0x80) (by omega)
    simp only [List.mem_cons, List.not_mem_nil, or_false] at member
    rcases member with rfl | rfl | rfl | rfl <;> omega

/-- A valid text can be cut at an ASCII byte. -/
theorem isValid_cut {s t : Text} {b : UInt8} (ascii : b.toNat < 0x80) (valid : (s ++ b :: t).isValid = true) :
    s.isValid = true ∧ t.isValid = true := by
  have char : ∀ c : Char, isValid (String.utf8EncodeChar c) = true := fun c =>
    (isValid_iff _).mpr ⟨[c], (List.append_nil _).symm⟩
  obtain ⟨cs, written⟩ := (isValid_iff _).mp valid
  clear valid
  induction cs generalizing s with
  | nil => exact absurd written (List.append_ne_nil_of_right_ne_nil s (List.cons_ne_nil b t))
  | cons c cs ih =>
      rw [ofChars_cons, List.append_eq_append_iff] at written
      rcases written with ⟨inside, first, rest⟩ | ⟨before, rfl, rest⟩
      · cases inside with
        | nil =>
            rw [List.append_nil] at first
            exact ⟨first ▸ char c, (ih (s := []) rest).2⟩
        | cons a inside =>
            -- the byte belongs to the first character, which is this byte alone
            obtain ⟨rfl, rfl⟩ := List.cons.inj rest
            have member : b ∈ String.utf8EncodeChar c := by simp [first]
            have low : c.toNat < 0x80 := by
              by_contra high
              have bound := le_of_mem_encode (by omega) member
              omega
            rw [encode_one low] at first
            have size := congrArg List.length first
            simp only [List.length_append, List.length_cons, List.length_nil] at size
            obtain rfl : s = [] := List.length_eq_zero_iff.mp (by omega)
            obtain rfl : inside = [] := List.length_eq_zero_iff.mp (by omega)
            exact ⟨rfl, (isValid_iff _).mpr ⟨cs, rfl⟩⟩
      · obtain ⟨front, back⟩ := ih rest.symm
        exact ⟨isValid_append (char c) front, back⟩

/-! ### Stray bytes -/

theorem leadingChar_eq_none_iff (b : UInt8) (t : Text) :
    leadingChar b t = none ↔ ∀ c rest, b :: t ≠ String.utf8EncodeChar c ++ rest := by
  constructor
  · intro none c rest begun
    obtain ⟨b', more, written, read⟩ := leadingChar_encode c rest
    rw [written, List.cons_append, List.cons_eq_cons] at begun
    obtain ⟨rfl, rfl⟩ := begun
    simp [none] at read
  · intro alone
    cases read : leadingChar b t with
    | none => rfl
    | some found =>
        obtain ⟨c, count⟩ := found
        obtain ⟨more, tail, rfl, -, written⟩ := encode_of_leadingChar b t c count read
        exact absurd (by rw [written, List.cons_append]) (alone c tail)

/-- The second text is the first one with U+FFFD in place of each byte that lies in no character, read from
the front. -/
inductive Mends : Text → Text → Prop where
  | done : Mends [] []
  | char (c : Char) {t u : Text} (later : Mends t u) :
      Mends (String.utf8EncodeChar c ++ t) (String.utf8EncodeChar c ++ u)
  | stray (b : UInt8) {t u : Text} (alone : ∀ c rest, b :: t ≠ String.utf8EncodeChar c ++ rest)
      (later : Mends t u) : Mends (b :: t) (String.utf8EncodeChar '\uFFFD' ++ u)

theorem repaired_encode (c : Char) (t : Text) :
    repaired (String.utf8EncodeChar c ++ t) = String.utf8EncodeChar c ++ repaired t := by
  rw [repaired, chars, glyphs_encode, List.map_cons, ofChars_cons]
  rfl

theorem repaired_stray {b : UInt8} {t : Text} (alone : leadingChar b t = none) :
    repaired (b :: t) = String.utf8EncodeChar '\uFFFD' ++ repaired t := by
  rw [repaired, chars, glyphs_stray alone, List.map_cons, ofChars_cons]
  rfl

theorem mends_iff (t u : Text) : Mends t u ↔ u = t.repaired := by
  constructor
  · intro mends
    induction mends with
    | done => rfl
    | char c later ih => rw [repaired_encode, ih]
    | stray b alone later ih => rw [repaired_stray ((leadingChar_eq_none_iff b _).mpr alone), ih]
  · rintro rfl
    induction t using glyphs_induction with
    | nil => exact .done
    | char c rest ih =>
        rw [repaired_encode]
        exact .char c ih
    | stray b rest alone ih =>
        rw [repaired_stray alone]
        exact .stray b ((leadingChar_eq_none_iff b rest).mp alone) ih

theorem repaired_eq_self_iff (t : Text) : t.repaired = t ↔ ∃ cs, t = ofChars cs :=
  ⟨fun same => ⟨t.chars, same.symm⟩, fun written => repaired_of_isValid ((isValid_iff t).mpr written)⟩

end ScriptAtlas.Text
