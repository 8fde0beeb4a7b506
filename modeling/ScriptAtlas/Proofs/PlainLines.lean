import ScriptAtlas.Proofs.CaselessPatterns

/-!
Lines that differ only in the case of their letters and in the blanks around them. What is read from
such lines is the same, but for the text itself and the spelling of the names in it.
-/

namespace ScriptAtlas

namespace Text

/-! ### Blanks around a text -/

theorem isBlank2_bytes {b c : UInt8} (blank : isBlank2 b c = true) :
    b = 0xC2 ∧ isBlank b = false ∧ isBlank c = false ∧ isContinuation c = true := by
  simp only [isBlank2, Bool.and_eq_true, Bool.or_eq_true, beq_iff_eq] at blank
  obtain ⟨rfl, rfl | rfl⟩ := blank <;> decide

theorem isBlank3_bytes {b c d : UInt8} (blank : isBlank3 b c d = true) :
    isBlank b = false ∧ isBlank2 b c = false ∧ isBlank d = false ∧ isBlank2 c d = false ∧
      isContinuation c = true ∧ isContinuation d = true := by
  simp only [isBlank3, isBlank2, isBlank, isContinuation, Bool.or_eq_true, Bool.and_eq_true,
    Bool.or_eq_false_iff, Bool.and_eq_false_iff, decide_eq_true_eq, decide_eq_false_iff_not,
    beq_iff_eq, beq_eq_false_iff_ne, ne_eq, ← UInt8.toNat_inj, UInt8.le_iff_toNat_le,
    UInt8.reduceToNat] at blank ⊢
  omega

theorem encode_of_isBlankChar {c : Char} (blank : isBlankChar c = true) :
    (∃ b, String.utf8EncodeChar c = [b] ∧ isBlank b = true) ∨
      (∃ b d, String.utf8EncodeChar c = [b, d] ∧ isBlank2 b d = true) ∨
      ∃ b d e, String.utf8EncodeChar c = [b, d, e] ∧ isBlank3 b d e = true := by
  have bounds := char_bounds c
  have notLead : ∀ b : UInt8, 0xC0 ≤ b.toNat → isBlank b = false := by decide +kernel
  have notPair : ∀ b d : UInt8, 0xE0 ≤ b.toNat → isBlank2 b d = false := by
    intro b d high
    have other : b ≠ 0xC2 := by
      rintro rfl
      exact absurd high (by decide)
    simp [isBlank2, other]
  rw [isBlankChar, ofChars_cons, show ofChars [] = [] from rfl, List.append_nil, bne_iff_ne] at blank
  rcases Nat.lt_or_ge c.toNat 0x80 with one | high
  · rw [encode_one one] at blank ⊢
    refine .inl ⟨_, rfl, ?_⟩
    simpa [blankWidth] using blank
  rcases Nat.lt_or_ge c.toNat 0x800 with two | high'
  · rw [encode_two high two] at blank ⊢
    have lead := toNat_byte (n := c.toNat / 64 + 0xC0) (by omega)
    refine .inr (.inl ⟨_, _, rfl, ?_⟩)
    rw [blankWidth, notLead _ (by omega)] at blank
    simpa using blank
  rcases Nat.lt_or_ge c.toNat 0x10000 with three | high''
  · rw [encode_three high' three] at blank ⊢
    have lead := toNat_byte (n := c.toNat / 4096 + 0xE0) (by omega)
    refine .inr (.inr ⟨_, _, _, rfl, ?_⟩)
    rw [blankWidth, notLead _ (by omega), notPair _ _ (by omega)] at blank
    simpa using blank
  · rw [encode_four high''] at blank
    have lead := toNat_byte (n := c.toNat / 262144 + 0xF0) (by omega)
    have notTriple : ∀ b d e : UInt8, 0xF0 ≤ b.toNat → isBlank3 b d e = false := by
      intro b d e high
      by_contra triple
      simp only [Bool.not_eq_false, isBlank3, Bool.or_eq_true, Bool.and_eq_true, beq_iff_eq,
        ← UInt8.toNat_inj, UInt8.reduceToNat] at triple
      omega
    rw [blankWidth, notLead _ (by omega), notPair _ _ (by omega), notTriple _ _ _ (by omega)] at blank
    exact absurd rfl blank

theorem trimFront_blank {c : Char} (blank : isBlankChar c = true) (t : Text) :
    trimFront (String.utf8EncodeChar c ++ t) = trimFront t := by
  rw [trimFront, trimFront]
  obtain ⟨b, written, one⟩ | ⟨b, d, written, two⟩ | ⟨b, d, e, written, three⟩ :=
    encode_of_isBlankChar blank
  · simp [written, dropBlanks.eq_def isBlank2 isBlank3 (b :: t), one]
  · obtain ⟨-, first, -⟩ := isBlank2_bytes two
    simp [written, dropBlanks.eq_def isBlank2 isBlank3 (b :: d :: t), first, two]
  · obtain ⟨first, pair, -⟩ := isBlank3_bytes three
    simp [written, dropBlanks.eq_def isBlank2 isBlank3 (b :: d :: e :: t), first, pair, three]

theorem trimFront_blanks {cs : List Char} (blank : cs.all isBlankChar = true) (t : Text) :
    trimFront (ofChars cs ++ t) = trimFront t := by
  induction cs with
  | nil => rfl
  | cons c cs ih =>
      rw [List.all_cons, Bool.and_eq_true] at blank
      rw [ofChars_cons, List.append_assoc, trimFront_blank blank.1, ih blank.2]

theorem trimBack_blank {c : Char} (blank : isBlankChar c = true) (t : Text) :
    trimBack (t ++ String.utf8EncodeChar c) = trimBack t := by
  rw [trimBack, trimBack, List.reverse_append]
  obtain ⟨b, written, one⟩ | ⟨b, d, written, two⟩ | ⟨b, d, e, written, three⟩ :=
    encode_of_isBlankChar blank
  · simp [written, dropBlanks.eq_def _ _ (b :: t.reverse), one]
  · obtain ⟨-, -, last, -⟩ := isBlank2_bytes two
    simp [written, dropBlanks.eq_def _ _ (d :: b :: t.reverse), last, two]
  · obtain ⟨-, -, last, pair, -⟩ := isBlank3_bytes three
    simp [written, dropBlanks.eq_def _ _ (e :: d :: b :: t.reverse), last, pair, three]

theorem trimBack_blanks {cs : List Char} (blank : cs.all isBlankChar = true) (t : Text) :
    trimBack (t ++ ofChars cs) = trimBack t := by
  induction cs generalizing t with
  | nil => exact congrArg trimBack (List.append_nil t)
  | cons c cs ih =>
      rw [List.all_cons, Bool.and_eq_true] at blank
      rw [ofChars_cons, ← List.append_assoc, ih blank.2, trimBack_blank blank.1]

section Boundary

variable {c : UInt8} (whole : isContinuation c = false)

include whole

theorem isBlank2_of_whole (b : UInt8) : isBlank2 b c = false :=
  Bool.eq_false_iff.mpr fun pair => by simp [(isBlank2_bytes pair).2.2.2] at whole

theorem isBlank3_of_second_whole (b d : UInt8) : isBlank3 b c d = false :=
  Bool.eq_false_iff.mpr fun triple => by simp [(isBlank3_bytes triple).2.2.2.2.1] at whole

theorem isBlank3_of_third_whole (a b : UInt8) : isBlank3 a b c = false :=
  Bool.eq_false_iff.mpr fun triple => by simp [(isBlank3_bytes triple).2.2.2.2.2] at whole

end Boundary

/-- Blanks do not reach beyond the end of a text: what follows begins with no continuation byte. -/
theorem trimFront_append {post : Text} (whole : ∀ b ∈ post.head?, isContinuation b = false) (t : Text) :
    trimFront (t ++ post) = if trimFront t = [] then trimFront post else trimFront t ++ post := by
  have step := dropBlanks.eq_def isBlank2 isBlank3
  rw [trimFront, trimFront]
  fun_induction dropBlanks isBlank2 isBlank3 t with
  | case1 => rfl
  | case2 b r blank ih =>
      rw [List.cons_append, step, ← ih]
      simp [blank]
  | case3 b notBlank =>
      cases post with
      | nil => simp [step [b], notBlank]
      | cons c post =>
          have apart := isBlank2_of_whole (whole c rfl)
          have second := isBlank3_of_second_whole (whole c rfl)
          cases post with
          | nil => simp [step [b, c], notBlank, apart]
          | cons d r => simp [step (b :: c :: d :: r), notBlank, apart, second]
  | case4 b notBlank c r pair ih =>
      rw [List.cons_append, List.cons_append, step, ← ih]
      simp [notBlank, pair]
  | case5 b notBlank c notPair =>
      cases post with
      | nil => simp [step [b, c], notBlank, notPair]
      | cons d r =>
          simp [step (b :: c :: d :: r), notBlank, notPair, isBlank3_of_third_whole (whole d rfl)]
  | case6 b notBlank c notPair d r triple ih =>
      rw [List.cons_append, List.cons_append, List.cons_append, step, ← ih]
      simp [notBlank, notPair, triple]
  | case7 b notBlank c notPair d r notTriple =>
      rw [List.cons_append, List.cons_append, List.cons_append, step]
      simp [notBlank, notPair, notTriple]

theorem leadingChar_of_isContinuation {b : UInt8} (continued : isContinuation b = true) (rest : Text) :
    leadingChar b rest = none := by
  rw [isContinuation_iff] at continued
  simp only [leadingChar, UInt8.lt_iff_toNat_lt, UInt8.le_iff_toNat_le, UInt8.reduceToNat,
    Bool.and_eq_true, decide_eq_true_eq]
  rw [if_neg (by omega), if_neg (by omega), if_neg (by omega), if_neg (by omega)]

theorem trim_blanks {front back : List Char} (before : front.all isBlankChar = true)
    (after : back.all isBlankChar = true) (t : Text) :
    trim (ofChars front ++ t ++ ofChars back) = trim t := by
  have whole : ∀ b ∈ (ofChars back).head?, isContinuation b = false := by
    cases back with
    | nil => simp [ofChars]
    | cons c cs =>
        obtain ⟨b, more, written, read⟩ := leadingChar_encode c []
        rw [ofChars_cons, written]
        rintro b ⟨⟩
        refine Bool.eq_false_iff.mpr fun continued => ?_
        rw [leadingChar_of_isContinuation continued] at read
        cases read
  have gone : trimFront (ofChars back) = [] := by
    have dropped := trimFront_blanks after []
    rwa [List.append_nil] at dropped
  rw [trim, trim, List.append_assoc, trimFront_blanks before, trimFront_append whole]
  split
  · rename_i empty
    rw [gone, empty]
  · exact trimBack_blanks after _

/-- A text is a core with blank characters around it. -/
def Surrounds (t core : Text) : Prop :=
  ∃ front back : List Char, front.all isBlankChar = true ∧ back.all isBlankChar = true ∧
    t = ofChars front ++ core ++ ofChars back

/-- Two texts that differ only in the case of ASCII letters and in the blanks around them. -/
def Alike (s t : Text) : Prop :=
  ∃ core core' : Text, s.Surrounds core ∧ t.Surrounds core' ∧ core.capitals = core'.capitals

theorem trim_of_surrounds {t core : Text} (around : t.Surrounds core) : t.trim = core.trim := by
  obtain ⟨front, back, before, after, rfl⟩ := around
  exact trim_blanks before after core

theorem Alike.trim_capitals {s t : Text} (alike : s.Alike t) : s.trim.capitals = t.trim.capitals := by
  obtain ⟨core, core', first, second, same⟩ := alike
  rw [trim_of_surrounds first, trim_of_surrounds second, ← Text.trim_capitals, same, Text.trim_capitals]

/-- What is the same of a text and of the text in capitals is the same of texts equal in capitals. -/
theorem eq_of_capitals {α : Type} {f : Text → α} (same : ∀ t : Text, f t.capitals = f t) {s t : Text}
    (equal : s.capitals = t.capitals) : f s = f t := by
  rw [← same s, equal, same]

end Text

namespace Line

open Text

/-- A line without its text and with its names in capitals. -/
def plain (l : Line) : Line :=
  { l with
    raw := []
    trimmed := []
    declared := l.declared.map Text.capitals
    used := l.used.map Text.capitals
    tables := l.tables.map Text.capitals }

theorem ofCode_capitals (code : Text) : (ofCode code.capitals).plain = (ofCode code).plain := by
  simp only [plain, ofCode, upper_capitals, declarationsOf_capitals, variablesOf_capitals,
    tablesOf_capitals, parensOf_capitals, List.map_map, capitals_comp_capitals]

theorem read_plain {a b : Text} (same : a.trim.capitals = b.trim.capitals) (index : Int) :
    (read a index).1.plain = (read b index).1.plain := by
  have empty : a.trim.isEmpty = b.trim.isEmpty := eq_of_capitals capitals_isEmpty same
  have upper : a.trim.upper = b.trim.upper := eq_of_capitals upper_capitals same
  have comment : isCommentText a.trim = isCommentText b.trim :=
    eq_of_capitals isCommentText_capitals same
  have marker : isSectionText a.trim = isSectionText b.trim :=
    eq_of_capitals isSectionText_capitals same
  have code : (strip a.trim).1.capitals = (strip b.trim).1.capitals := by
    have shown := strip_capitals a.trim
    rw [same, strip_capitals] at shown
    exact (congrArg Prod.fst shown).symm
  have facts : (ofCode (strip a.trim).1).plain = (ofCode (strip b.trim).1).plain :=
    eq_of_capitals (f := fun code => (ofCode code).plain) ofCode_capitals code
  simp only [read, empty, comment, upper, marker]
  split
  · rfl
  · split
    · rfl
    · -- what was read of the code is compared as it stands, not read again
      generalize ofCode (strip a.trim).1 = l, ofCode (strip b.trim).1 = m at facts ⊢
      exact congrArg (fun l : Line => { l with
        index := index, upper := b.trim.upper, business := businessOf b.trim.upper }) facts

end Line

end ScriptAtlas
