import Mathlib.Data.FinEnum
import ScriptAtlas.Line.Classify
import ScriptAtlas.Proofs.Characters

/-!
Texts in capitals: what depends on a text only up to the case of its ASCII letters.
-/

namespace ScriptAtlas.Text

def capitals (t : Text) : Text :=
  t.map upperByte

@[simp] theorem capitals_nil : capitals [] = [] :=
  rfl

@[simp] theorem capitals_cons (b : UInt8) (t : Text) : capitals (b :: t) = upperByte b :: capitals t :=
  rfl

@[simp] theorem capitals_append (s t : Text) : capitals (s ++ t) = capitals s ++ capitals t :=
  List.map_append

@[simp] theorem capitals_isEmpty (t : Text) : t.capitals.isEmpty = t.isEmpty :=
  List.isEmpty_map

@[simp] theorem capitals_length (t : Text) : t.capitals.length = t.length :=
  List.length_map _

theorem capitals_reverse (t : Text) : capitals t.reverse = t.capitals.reverse :=
  List.map_reverse

theorem capitals_drop (t : Text) (n : Nat) : capitals (t.drop n) = t.capitals.drop n :=
  List.map_drop

theorem capitals_take (t : Text) (n : Nat) : capitals (t.take n) = t.capitals.take n :=
  List.map_take

/-! ### Bytes -/

theorem upperByte_toNat (b : UInt8) : (upperByte b).toNat =
    if 0x61 ≤ b.toNat ∧ b.toNat ≤ 0x7A then b.toNat - 0x20 else b.toNat := by
  simp only [upperByte, Bool.and_eq_true, decide_eq_true_eq, UInt8.le_iff_toNat_le, UInt8.reduceToNat]
  split
  · rename_i letter
    have low : (0x20 : UInt8) ≤ b := by
      simp only [UInt8.le_iff_toNat_le, UInt8.reduceToNat]
      omega
    exact UInt8.toNat_sub_of_le b 0x20 low
  · rfl

theorem upperByte_upperByte (b : UInt8) : upperByte (upperByte b) = upperByte b := by
  have once := upperByte_toNat b
  have twice := upperByte_toNat (upperByte b)
  rw [← UInt8.toNat_inj]
  split at once <;> split at twice <;> omega

theorem capitals_comp_capitals : capitals ∘ capitals = capitals := by
  funext t
  rw [Function.comp_apply, capitals, capitals, List.map_map]
  exact congrArg (List.map · t) (funext upperByte_upperByte)

def isUncased (b : UInt8) : Bool :=
  !(0x41 ≤ b && b ≤ 0x5A) && !(0x61 ≤ b && b ≤ 0x7A)

theorem upperByte_eq_iff {c : UInt8} (uncased : isUncased c = true) (b : UInt8) :
    upperByte b = c ↔ b = c := by
  simp only [isUncased, Bool.and_eq_true, Bool.not_eq_true', Bool.and_eq_false_iff,
    decide_eq_false_iff_not, UInt8.le_iff_toNat_le, UInt8.reduceToNat] at uncased
  have mapped := upperByte_toNat b
  rw [← UInt8.toNat_inj, ← UInt8.toNat_inj]
  split at mapped <;> omega

theorem upperByte_beq {c : UInt8} (uncased : isUncased c = true) (b : UInt8) :
    (upperByte b == c) = (b == c) := by
  rw [Bool.eq_iff_iff, beq_iff_eq, beq_iff_eq, upperByte_eq_iff uncased]

theorem upperByte_of_le {b : UInt8} (high : 0x80 ≤ b.toNat) : upperByte b = b := by
  have mapped := upperByte_toNat b
  rw [if_neg (by omega)] at mapped
  exact UInt8.toNat_inj.mp mapped

/-! ### Blanks -/

theorem isBlank_upperByte (b : UInt8) : isBlank (upperByte b) = isBlank b := by
  have mapped := upperByte_toNat b
  rw [Bool.eq_iff_iff]
  simp only [isBlank, Bool.or_eq_true, Bool.and_eq_true, decide_eq_true_eq, beq_iff_eq, UInt8.le_iff_toNat_le,
    ← UInt8.toNat_inj, UInt8.reduceToNat]
  split at mapped <;> omega

theorem isBlank2_upperByte (b c : UInt8) : isBlank2 (upperByte b) (upperByte c) = isBlank2 b c := by
  simp only [isBlank2]
  repeat rw [upperByte_beq (by decide)]

theorem lastBlank_upperByte (d : UInt8) :
    ((0x80 ≤ upperByte d && upperByte d ≤ 0x8A) || upperByte d == 0xA8 || upperByte d == 0xA9 ||
      upperByte d == 0xAF) = ((0x80 ≤ d && d ≤ 0x8A) || d == 0xA8 || d == 0xA9 || d == 0xAF) := by
  have mapped := upperByte_toNat d
  rw [Bool.eq_iff_iff]
  simp only [Bool.or_eq_true, Bool.and_eq_true, decide_eq_true_eq, beq_iff_eq, UInt8.le_iff_toNat_le,
    ← UInt8.toNat_inj, UInt8.reduceToNat]
  split at mapped <;> omega

theorem isBlank3_upperByte (b c d : UInt8) :
    isBlank3 (upperByte b) (upperByte c) (upperByte d) = isBlank3 b c d := by
  simp only [isBlank3, lastBlank_upperByte]
  repeat rw [upperByte_beq (by decide)]

theorem dropBlanks_capitals (two : UInt8 → UInt8 → Bool) (three : UInt8 → UInt8 → UInt8 → Bool)
    (pairs : ∀ b c, two (upperByte b) (upperByte c) = two b c)
    (triples : ∀ b c d, three (upperByte b) (upperByte c) (upperByte d) = three b c d) (t : Text) :
    dropBlanks two three t.capitals = (dropBlanks two three t).capitals := by
  -- one step of the definition, on either side
  have step := dropBlanks.eq_def two three
  fun_induction dropBlanks two three t with
  | case1 => rfl
  | case2 b r blank ih =>
      rw [capitals_cons, step]
      simp only [isBlank_upperByte, blank, if_true, ih]
  | case3 b notBlank => simp [step, isBlank_upperByte, notBlank]
  | case4 b notBlank c r pair ih =>
      rw [capitals_cons, capitals_cons, step]
      simp only [isBlank_upperByte, notBlank, pairs, pair, if_true, if_false, ih, Bool.false_eq_true]
  | case5 b notBlank c notPair => simp [step, isBlank_upperByte, notBlank, pairs, notPair]
  | case6 b notBlank c notPair d r triple ih =>
      rw [capitals_cons, capitals_cons, capitals_cons, step]
      simp only [isBlank_upperByte, notBlank, pairs, notPair, triples, triple, if_true, if_false, ih,
        Bool.false_eq_true]
  | case7 b notBlank c notPair d r notTriple =>
      rw [capitals_cons, capitals_cons, capitals_cons, step]
      simp only [isBlank_upperByte, notBlank, pairs, notPair, triples, notTriple, if_false,
        Bool.false_eq_true]

theorem trim_capitals (t : Text) : t.capitals.trim = t.trim.capitals := by
  have front : t.capitals.trimFront = t.trimFront.capitals :=
    dropBlanks_capitals isBlank2 isBlank3 isBlank2_upperByte isBlank3_upperByte t
  rw [trim, trim, front, trimBack, trimBack, ← capitals_reverse,
    dropBlanks_capitals _ _ (fun c b => isBlank2_upperByte b c) (fun d c b => isBlank3_upperByte b c d),
    ← capitals_reverse]

/-! ### Fixed pieces without letters -/

section Piece

variable {piece : Text}

theorem isPrefixOf_capitals (uncased : piece.all isUncased = true) (t : Text) :
    piece.isPrefixOf t.capitals = piece.isPrefixOf t := by
  induction piece generalizing t with
  | nil => rfl
  | cons c piece ih =>
      rw [List.all_cons, Bool.and_eq_true] at uncased
      cases t with
      | nil => rfl
      | cons b rest =>
          rw [capitals_cons, List.isPrefixOf, List.isPrefixOf, ih uncased.2, Bool.beq_comm,
            upperByte_beq uncased.1, Bool.beq_comm]

theorem startsWith_capitals (uncased : piece.all isUncased = true) (t : Text) :
    t.capitals.startsWith piece = t.startsWith piece :=
  isPrefixOf_capitals uncased t

theorem endsWith_capitals (uncased : piece.all isUncased = true) (t : Text) :
    t.capitals.endsWith piece = t.endsWith piece := by
  rw [endsWith, endsWith, List.isSuffixOf, List.isSuffixOf, ← capitals_reverse,
    isPrefixOf_capitals (by rwa [List.all_reverse])]

theorem contains_capitals (uncased : piece.all isUncased = true) (t : Text) :
    t.capitals.contains piece = t.contains piece := by
  rw [contains, contains]
  induction t with
  | nil => rfl
  | cons b rest ih =>
      rw [capitals_cons, cut, cut, ← capitals_cons, isPrefixOf_capitals uncased]
      split
      · rfl
      · rw [Option.isSome_map, Option.isSome_map, ih]

theorem withoutFront_capitals (uncased : piece.all isUncased = true) (t : Text) :
    t.capitals.withoutFront piece = (t.withoutFront piece).capitals := by
  rw [withoutFront, withoutFront, isPrefixOf_capitals uncased]
  split
  · exact (capitals_drop t piece.length).symm
  · rfl

theorem withoutBack_capitals (uncased : piece.all isUncased = true) (t : Text) :
    t.capitals.withoutBack piece = (t.withoutBack piece).capitals := by
  have ends := endsWith_capitals uncased t
  rw [endsWith, endsWith] at ends
  rw [withoutBack, withoutBack, ends]
  split
  · rw [capitals_length, capitals_take]
  · rfl

end Piece

/-! ### Characters -/

def capitalChar (c : Char) : Char :=
  if c.toNat < 0x80 then c.toUpper else c

/-- The ASCII characters are looked at one by one; the others stay as they are. -/
theorem capitalChar_ind {motive : Char → Char → Prop}
    (ascii : ∀ n : Fin 128, motive (Char.ofNat n) (Char.ofNat n).toUpper)
    (other : ∀ c : Char, 0x80 ≤ c.toNat → motive c c) (c : Char) : motive c (capitalChar c) := by
  rw [capitalChar]
  split
  · rename_i low
    have here := ascii ⟨c.toNat, low⟩
    rwa [Char.ofNat_toNat] at here
  · rename_i high
    exact other c (Nat.not_lt.mp high)

theorem capitals_of_high {t : Text} (high : ∀ b ∈ t, 0x80 ≤ b.toNat) : t.capitals = t := by
  rw [capitals, List.map_congr_left (g := fun b => b) fun b member => upperByte_of_le (high b member),
    List.map_id']

theorem capitals_encode (c : Char) :
    capitals (String.utf8EncodeChar c) = String.utf8EncodeChar (capitalChar c) :=
  capitalChar_ind (motive := fun c d => capitals (String.utf8EncodeChar c) = String.utf8EncodeChar d)
    (by decide +kernel) (fun _ high => capitals_of_high fun _ => le_of_mem_encode high) c

theorem toNat_upperByte_le {b : UInt8} (high : 0x80 ≤ (upperByte b).toNat) : 0x80 ≤ b.toNat := by
  have mapped := upperByte_toNat b
  split at mapped <;> omega

/-- A byte that starts no character starts none either when letters around it change their case. -/
theorem leadingChar_capitals_none {b : UInt8} {rest : Text} (stray : leadingChar b rest = none) :
    0x80 ≤ b.toNat ∧ leadingChar b rest.capitals = none := by
  have high : 0x80 ≤ b.toNat := by
    by_contra low
    rw [leadingChar_one (by omega)] at stray
    cases stray
  refine ⟨high, Option.eq_none_iff_forall_ne_some.mpr fun ⟨c, count⟩ read => ?_⟩
  obtain ⟨more, tail, shown, -, written⟩ := encode_of_leadingChar b _ c count read
  obtain ⟨more', tail', rfl, rfl, -⟩ := List.map_eq_append_iff.mp shown
  have beyond : 0x80 ≤ c.toNat := by
    by_contra low
    rw [encode_one (by omega), List.cons_eq_cons, ← UInt8.toNat_inj, toNat_byte (by omega)] at written
    omega
  -- the bytes after `b` are no letters, so they stood there before
  have same : capitals more' = more' := by
    refine capitals_of_high fun d member => toNat_upperByte_le (le_of_mem_encode beyond ?_)
    rw [written]
    exact List.mem_cons_of_mem _ (List.mem_map_of_mem member)
  obtain ⟨b', written', shown', read'⟩ := leadingChar_encode c tail'
  rw [written, List.cons_eq_cons] at shown'
  obtain ⟨rfl, rfl⟩ := shown'
  rw [← capitals, same, stray] at read'
  cases read'

theorem chars_capitals (t : Text) : t.capitals.chars = t.chars.map capitalChar := by
  induction t using glyphs_induction with
  | nil => rfl
  | char c rest ih =>
      rw [chars, chars] at ih ⊢
      rw [capitals_append, capitals_encode, glyphs_encode, glyphs_encode, List.map_cons, List.map_cons,
        List.map_cons, ih]
      rfl
  | stray b rest alone ih =>
      obtain ⟨high, alone'⟩ := leadingChar_capitals_none alone
      rw [chars, chars] at ih ⊢
      rw [capitals_cons, upperByte_of_le high, glyphs_stray alone', glyphs_stray alone, List.map_cons,
        List.map_cons, List.map_cons, ih]
      rfl

/-! ### Names -/

theorem capitalChar_alike (c : Char) : upperChar (capitalChar c) = upperChar c ∧
    foldChar (capitalChar c) = foldChar c ∧ isBlankChar (capitalChar c) = isBlankChar c ∧
      Vocabulary.sectionChars.elem (capitalChar c) = Vocabulary.sectionChars.elem c :=
  capitalChar_ind (motive := fun c d => upperChar d = upperChar c ∧ foldChar d = foldChar c ∧
    isBlankChar d = isBlankChar c ∧ Vocabulary.sectionChars.elem d = Vocabulary.sectionChars.elem c)
    (by decide +kernel) (fun _ _ => ⟨rfl, rfl, rfl, rfl⟩) c

theorem isAscii_capitals (t : Text) : t.capitals.isAscii = t.isAscii := by
  have each : ∀ b : UInt8, decide (upperByte b < 0x80) = decide (b < 0x80) := by
    intro b
    have mapped := upperByte_toNat b
    simp only [decide_eq_decide, UInt8.lt_iff_toNat_lt, UInt8.reduceToNat]
    split at mapped <;> omega
  rw [isAscii, isAscii, capitals, List.all_map]
  exact congrArg t.all (funext each)

@[simp] theorem upper_capitals (t : Text) : t.capitals.upper = t.upper := by
  have bytes : upperByte ∘ upperByte = upperByte := funext upperByte_upperByte
  have chars : upperChar ∘ capitalChar = upperChar := funext fun c => (capitalChar_alike c).1
  rw [upper, upper, isAscii_capitals, chars_capitals, List.map_map, chars, capitals, List.map_map,
    bytes]

theorem sameName_capitals (s t : Text) : sameName s.capitals t.capitals = sameName s t := by
  have chars : foldChar ∘ capitalChar = foldChar := funext fun c => (capitalChar_alike c).2.1
  rw [sameName, sameName, chars_capitals, chars_capitals, List.map_map, List.map_map, chars]

theorem hasName_capitals (names : List Text) (name : Text) :
    hasName (names.map capitals) name.capitals = hasName names name := by
  rw [hasName, hasName, List.any_map]
  exact congrArg names.any (funext fun known => sameName_capitals known name)

end ScriptAtlas.Text
