import ScriptAtlas.Guide.Ranges
import ScriptAtlas.Proofs.Blanks
import ScriptAtlas.Proofs.Decimals
import ScriptAtlas.Proofs.Descriptions
import ScriptAtlas.Proofs.SourceText

/-!
Line ranges read off a text. A text whose lines neither open a fence nor say `Lines: ` adds nothing to
what is read, and a line that says so before two numbers adds their range.
-/

namespace ScriptAtlas

namespace Guide

def label : Text := "Lines: "

/-- A line that neither opens a fence nor announces a range. -/
def Clear (line : Text) : Prop :=
  ¬ label <:+: line ∧ 0x60 ∉ line ∧ 0x0A ∉ line

instance (line : Text) : Decidable (Clear line) :=
  inferInstanceAs (Decidable (¬ label <:+: line ∧ 0x60 ∉ line ∧ 0x0A ∉ line))

theorem isFence_of_not_mem {line : Text} (absent : 0x60 ∉ line) : isFence line = false := by
  refine Bool.eq_false_iff.mpr fun fence => absent (Text.mem_of_mem_trim ?_)
  exact (List.isPrefixOf_iff_prefix.mp fence).subset (by decide)

/-! ### Ranges on a line -/

theorem hitAt_rangePattern {behind ahead : Text} (absent : ¬ label <+: ahead) :
    rangePattern.hitAt behind ahead = none := by
  rw [Pattern.hitAt, Option.map_eq_none_iff, List.head?_eq_none_iff, List.eq_nil_iff_forall_not_mem]
  intro e ended
  obtain ⟨d, here, -⟩ := (Pattern.mem_ends_seq _ _ _ e).mp ended
  exact absent ⟨d.ahead, (Pattern.bytes_reads label _ d here).symm⟩

theorem allFrom_rangePattern {behind ahead : Text} {skip : Nat} (absent : ¬ label <:+: ahead) :
    rangePattern.allFrom behind skip ahead = [] := by
  induction ahead generalizing behind skip with
  | nil => rw [Pattern.allFrom]
  | cons b rest ih =>
      have later : ¬ label <:+: rest := fun inside => absent (inside.trans (List.suffix_cons b rest).isInfix)
      cases skip with
      | succ skip => rw [Pattern.allFrom, ih later]
      | zero =>
          rw [Pattern.allFrom, hitAt_rangePattern fun front => absent front.isInfix]
          exact ih later

theorem rangesOnLine_of_clear {line : Text} (clear : Clear line) : rangesOnLine line = [] := by
  rw [rangesOnLine, Pattern.all, allFrom_rangePattern clear.1]
  rfl

/-- Digits are read as far as they go before anything else is tried. -/
theorem repeatGreedy_digits {digits rest : Text} (each : ∀ b ∈ digits, Text.isDigit b = true)
    (stop : ∀ b ∈ rest.head?, Text.isDigit b = false) {bound : Nat} (room : digits.length ≤ bound)
    (behind : Text) (marked : List Text) :
    (Pattern.repeatGreedy (Pattern.one Text.isDigit).ends bound ⟨behind, digits ++ rest, marked⟩).head? =
      some ⟨digits.reverse ++ behind, rest, marked⟩ := by
  induction digits generalizing bound behind with
  | nil =>
      have none : (Pattern.one Text.isDigit).ends ⟨behind, rest, marked⟩ = [] := by
        cases rest with
        | nil => rfl
        | cons b rest => simp [Pattern.ends, stop b rfl]
      cases bound <;> simp [Pattern.repeatGreedy, none]
  | cons d digits ih =>
      rw [List.length_cons] at room
      rw [List.forall_mem_cons] at each
      obtain ⟨bound, rfl⟩ : ∃ smaller, bound = smaller + 1 := ⟨bound - 1, by omega⟩
      have one : (Pattern.one Text.isDigit).ends ⟨behind, d :: (digits ++ rest), marked⟩ =
          [⟨d :: behind, digits ++ rest, marked⟩] := by
        simp [Pattern.ends, each.1]
      rw [Pattern.repeatGreedy, List.cons_append, one, List.flatMap_cons, List.flatMap_nil,
        List.append_nil, List.head?_append, ih each.2 (by omega), Option.some_or, List.reverse_cons,
        List.append_assoc, List.singleton_append]

theorem head?_flatMap {α β : Type} {xs : List α} {f : α → List β} {x : α} {y : β} (first : xs.head? = some x)
    (next : (f x).head? = some y) : (xs.flatMap f).head? = some y := by
  obtain ⟨rest, rfl⟩ := List.head?_eq_some_iff.mp first
  rw [List.flatMap_cons, List.head?_append, next, Option.some_or]

theorem head?_bytes (word rest behind : Text) (marked : List Text) :
    ((Pattern.bytes word).ends ⟨behind, word ++ rest, marked⟩).head? =
      some ⟨word.reverse ++ behind, rest, marked⟩ := by
  induction word generalizing behind with
  | nil => rfl
  | cons b word ih =>
      have one : ((Pattern.one (· == b)).ends ⟨behind, b :: (word ++ rest), marked⟩).head? =
          some ⟨b :: behind, word ++ rest, marked⟩ := by
        simp [Pattern.ends]
      cases word with
      | nil => exact one
      | cons next word =>
          rw [List.reverse_cons, List.append_assoc]
          exact head?_flatMap one (ih (b :: behind))

theorem head?_number (n : Nat) {rest : Text} (stop : ∀ b ∈ rest.head?, Text.isDigit b = false)
    (behind : Text) (marked : List Text) :
    ((Pattern.mark (Pattern.some1 (.one Text.isDigit))).ends ⟨behind, Text.ofNat n ++ rest, marked⟩).head? =
      some ⟨(Text.ofNat n).reverse ++ behind, rest, marked ++ [Text.ofNat n]⟩ := by
  obtain ⟨d, digits, written⟩ := List.exists_cons_of_ne_nil (Text.ofNat_ne_nil n)
  have each : ∀ b ∈ d :: digits, Text.isDigit b = true := fun b member =>
    Text.isDigit_of_mem_ofNat (written ▸ member)
  rw [List.forall_mem_cons] at each
  have one : ((Pattern.one Text.isDigit).ends ⟨behind, d :: (digits ++ rest), marked⟩).head? =
      some ⟨d :: behind, digits ++ rest, marked⟩ := by
    simp [Pattern.ends, each.1]
  have read : ((Pattern.some1 (.one Text.isDigit)).ends ⟨behind, d :: (digits ++ rest), marked⟩).head? =
      some ⟨(d :: digits).reverse ++ behind, rest, marked⟩ := by
    rw [List.reverse_cons, List.append_assoc]
    exact head?_flatMap one (repeatGreedy_digits each.2 stop (by simp) (d :: behind) marked)
  have between : Pattern.readBetween ⟨behind, d :: (digits ++ rest), marked⟩
      ⟨(d :: digits).reverse ++ behind, rest, marked⟩ = d :: digits := by
    rw [Pattern.readBetween, ← List.cons_append, List.length_append, Nat.add_sub_cancel, List.take_left]
  rw [written, List.cons_append, Pattern.ends, List.head?_map, read, Option.map_some, between]

theorem hitAt_range (a b : Nat) (behind : Text) :
    rangePattern.hitAt behind (label ++ (Text.ofNat a ++ 0x2D :: Text.ofNat b)) =
      some ⟨behind, label ++ (Text.ofNat a ++ 0x2D :: Text.ofNat b), [Text.ofNat a, Text.ofNat b], []⟩ := by
  have dash : ∀ x ∈ (0x2D :: Text.ofNat b).head?, Text.isDigit x = false := by
    rintro x ⟨⟩
    decide
  have last : ∀ behind marked,
      ((Pattern.mark (Pattern.some1 (.one Text.isDigit))).ends ⟨behind, Text.ofNat b, marked⟩).head? =
        some ⟨(Text.ofNat b).reverse ++ behind, [], marked ++ [Text.ofNat b]⟩ := by
    intro behind marked
    have read := head?_number b (fun x (none : x ∈ ([] : Text).head?) => by cases none) behind marked
    rwa [List.append_nil] at read
  have ended : (rangePattern.ends ⟨behind, label ++ (Text.ofNat a ++ 0x2D :: Text.ofNat b), []⟩).head? =
      some ⟨_, [], [Text.ofNat a, Text.ofNat b]⟩ :=
    head?_flatMap (head?_bytes label _ behind []) (head?_flatMap (head?_number a dash _ [])
      (head?_flatMap (head?_bytes [0x2D] (Text.ofNat b) _ _) (last _ _)))
  rw [Pattern.hitAt, ended, Option.map_some, Pattern.readBetween, List.length_nil, Nat.sub_zero,
    List.take_length]

theorem allFrom_of_length_le {p : Pattern} {behind ahead : Text} {skip : Nat} (room : ahead.length ≤ skip) :
    p.allFrom behind skip ahead = [] := by
  induction ahead generalizing behind skip with
  | nil => rw [Pattern.allFrom]
  | cons b rest ih =>
      obtain ⟨skip, rfl⟩ : ∃ smaller, skip = smaller + 1 := ⟨skip - 1, by rw [List.length_cons] at room; omega⟩
      rw [Pattern.allFrom, ih (Nat.le_of_succ_le_succ room)]

theorem rangesOnLine_entry {a b : Nat} (first : (a : Int) ≤ maxInt64) (last : (b : Int) ≤ maxInt64) :
    rangesOnLine ("   - Lines: " ++ (Text.ofNat a ++ "-" ++ Text.ofNat b)) = [⟨a, b⟩] := by
  have number : ∀ {n : Nat}, (n : Int) ≤ maxInt64 → lineNumber? (Text.ofNat n) = some (n : Int) := by
    intro n fits
    rw [lineNumber?, Text.digitsValue_ofNat]
    exact if_pos fits
  have skip : ∀ b behind rest, b ≠ 0x4C → rangePattern.allFrom behind 0 (b :: rest) =
      rangePattern.allFrom (b :: behind) 0 rest := by
    intro b behind rest other
    rw [Pattern.allFrom, hitAt_rangePattern]
    rintro ⟨tail, shown⟩
    exact other (List.cons.inj shown).1.symm
  have line : Text.ofString "   - Lines: " ++ (Text.ofNat a ++ "-" ++ Text.ofNat b) =
      0x20 :: 0x20 :: 0x20 :: 0x2D :: 0x20 :: (label ++ (Text.ofNat a ++ 0x2D :: Text.ofNat b)) := by
    rw [List.append_assoc (Text.ofNat a)]
    rfl
  have hit := hitAt_range a b [0x20, 0x2D, 0x20, 0x20, 0x20]
  rw [rangesOnLine, Pattern.all, line]
  repeat rw [skip _ _ _ (by decide)]
  obtain ⟨tail, shown⟩ : ∃ tail, label ++ (Text.ofNat a ++ 0x2D :: Text.ofNat b) = 0x4C :: tail := ⟨_, rfl⟩
  rw [shown] at hit ⊢
  rw [Pattern.allFrom, hit]
  dsimp only
  rw [allFrom_of_length_le (by simp), List.filterMap_cons, List.filterMap_nil]
  simp [number first, number last]

/-! ### Lines of a text -/

def fencedAfter (fenced : Bool) (lines : List Text) : Bool :=
  lines.foldl (fun fenced line => if isFence line then !fenced else fenced) fenced

theorem rangesFrom_append (fenced : Bool) (lines more : List Text) :
    rangesFrom fenced (lines ++ more) =
      rangesFrom fenced lines ++ rangesFrom (fencedAfter fenced lines) more := by
  induction lines generalizing fenced with
  | nil => rfl
  | cons line lines ih =>
      rw [List.cons_append, rangesFrom, rangesFrom, fencedAfter, List.foldl_cons]
      split
      · exact ih (!fenced)
      · split
        · exact ih fenced
        · rw [ih, List.append_assoc]
          rfl

/-- What is read off a text that stands inside or outside a fence. -/
def found (fenced : Bool) (t : Text) : List LineRange :=
  rangesFrom fenced (Text.splitAt 0x0A t)

theorem found_append (fenced : Bool) (t rest : Text) : found fenced (t ++ 0x0A :: rest) =
    found fenced t ++ found (fencedAfter fenced (Text.splitAt 0x0A t)) rest := by
  rw [found, Text.splitAt_append, rangesFrom_append]
  rfl

/-- A text that neither adds a range nor opens or closes a fence. -/
def Silent (t : Text) : Prop :=
  ∀ fenced rest, found fenced (t ++ rest) = found fenced rest

theorem Silent.nil : Silent [] :=
  fun _ _ => rfl

theorem Silent.append {s t : Text} (first : Silent s) (second : Silent t) : Silent (s ++ t) := by
  intro fenced rest
  rw [List.append_assoc, first, second]

theorem Silent.flatMap {α : Type} {items : List α} {write : α → Text}
    (each : ∀ item ∈ items, Silent (write item)) : Silent (items.flatMap write) := by
  induction items with
  | nil => exact Silent.nil
  | cons item items ih =>
      rw [List.forall_mem_cons] at each
      rw [List.flatMap_cons]
      exact each.1.append (ih each.2)

theorem silent_lines {t : Text} (ended : t.getLast? = some 0x0A)
    (clear : ∀ line ∈ Text.splitAt 0x0A t, Clear line) : Silent t := by
  obtain ⟨lines, rfl⟩ := List.getLast?_eq_some_iff.mp ended
  rw [Text.splitAt_append, List.forall_mem_append] at clear
  have quiet : ∀ fenced, found fenced lines = [] ∧ fencedAfter fenced (Text.splitAt 0x0A lines) = fenced := by
    intro fenced
    rw [found]
    generalize Text.splitAt 0x0A lines = pieces at clear
    induction pieces with
    | nil => exact ⟨rfl, rfl⟩
    | cons line pieces ih =>
        rw [List.forall_mem_cons] at clear
        have plain := isFence_of_not_mem clear.1.1.2.1
        have none := rangesOnLine_of_clear clear.1.1
        obtain ⟨ranges, fence⟩ := ih ⟨clear.1.2, clear.2⟩
        rw [rangesFrom, fencedAfter, List.foldl_cons, plain, none, ranges]
        exact ⟨by cases fenced <;> rfl, fence⟩
  intro fenced rest
  rw [List.append_assoc, List.singleton_append, found_append, (quiet fenced).1, (quiet fenced).2,
    List.nil_append]

theorem silent_line {line : Text} (clear : Clear line) : Silent (line ++ [0x0A]) := by
  refine silent_lines List.getLast?_concat ?_
  rw [Text.splitAt_append, Text.splitAt_of_not_mem line clear.2.2]
  simpa [Text.splitAt] using ⟨clear, by decide⟩

/-- A text that adds some ranges outside a fence and leaves none open. -/
def Shows (t : Text) (ranges : List LineRange) : Prop :=
  ∀ rest, found false (t ++ rest) = ranges ++ found false rest

theorem Silent.shows {t : Text} (silent : Silent t) : Shows t [] :=
  fun rest => silent false rest

theorem Shows.append {s t : Text} {ranges more : List LineRange} (first : Shows s ranges)
    (second : Shows t more) : Shows (s ++ t) (ranges ++ more) := by
  intro rest
  rw [List.append_assoc, first, second, List.append_assoc]

/-! ### Clear texts -/

theorem clear_of_absent {b : UInt8} {t : Text} (needed : b ∈ label) (absent : b ∉ t) (fence : 0x60 ∉ t)
    (whole : 0x0A ∉ t) : Clear t :=
  ⟨fun inside => absent (inside.subset needed), fence, whole⟩

/-- The places at which the announcement of a range can be cut in two. -/
theorem label_cut {first second : Text} (cut : label = first ++ second) (begun : first ≠ [])
    (more : second ≠ []) : first.getLast? ≠ some 0x20 ∧ ∃ b ∈ second.head?, b ∈ Text.ofString "ines: " := by
  have size := congrArg List.length cut
  rw [List.length_append, show label.length = 7 by decide] at size
  have low := List.length_pos_iff.mpr begun
  have high := List.length_pos_iff.mpr more
  have each : ∀ k < 7, 0 < k → (label.take k).getLast? ≠ some 0x20 ∧
      ∃ b ∈ (label.drop k).head?, b ∈ Text.ofString "ines: " := by
    decide
  have here := each first.length (by omega) low
  rwa [cut, List.take_left, List.drop_left] at here

theorem Clear.append {s t : Text} (first : Clear s) (second : Clear t)
    (apart : s.getLast? = some 0x20 ∨ ∀ b ∈ t.head?, b ∉ Text.ofString "ines: ") : Clear (s ++ t) := by
  refine ⟨?_, ?_, ?_⟩
  · rw [List.infix_append_iff]
    rintro (inside | inside | ⟨before, after, cut, suffix, front⟩)
    · exact first.1 inside
    · exact second.1 inside
    · rcases eq_or_ne before [] with rfl | begun
      · exact second.1 (cut ▸ front.isInfix)
      rcases eq_or_ne after [] with rfl | more
      · rw [List.append_nil] at cut
        exact first.1 (cut ▸ suffix.isInfix)
      obtain ⟨last, b, head, listed⟩ := label_cut cut begun more
      rcases apart with blank | other
      · obtain ⟨rest, rfl⟩ := suffix
        rw [List.getLast?_append_of_ne_nil _ begun] at blank
        exact last blank
      · obtain ⟨rest, rfl⟩ := front
        refine other b ?_ listed
        rw [List.head?_append, Option.mem_def.mp head]
        rfl
  · rw [List.mem_append, not_or]
    exact ⟨first.2.1, second.2.1⟩
  · rw [List.mem_append, not_or]
    exact ⟨first.2.2, second.2.2⟩

theorem Clear.join {items : List Text} (each : ∀ item ∈ items, Clear item) : Clear (Text.join ", " items) := by
  induction items with
  | nil => decide
  | cons item rest ih =>
      rw [List.forall_mem_cons] at each
      cases rest with
      | nil => exact each.1
      | cons next rest =>
          have comma : Clear (item ++ Text.ofString ", ") :=
            each.1.append (by decide) (.inr (by decide +kernel))
          refine comma.append (ih each.2) (.inl ?_)
          exact List.getLast?_append_of_ne_nil _ (by decide)

/-- No colon, no backtick and no line end. -/
def Tame (t : Text) : Prop :=
  ∀ b ∈ t, b ≠ 0x3A ∧ b ≠ 0x60 ∧ b ≠ 0x0A

theorem tame_prose : Prose Tame where
  nil := by simp [Tame]
  append first second := List.forall_mem_append.mpr ⟨first, second⟩
  byte b listed := by
    simp only [isProseByte, Bool.and_eq_true, decide_eq_true_eq, bne_iff_ne, UInt8.le_iff_toNat_le,
      UInt8.reduceToNat] at listed
    refine List.forall_mem_singleton.mpr ⟨listed.1.2, listed.2, fun same => ?_⟩
    simp only [same, UInt8.reduceToNat] at listed
    omega
  longS := by simp [Tame]
  kelvinSign := by simp [Tame]

theorem Tame.clear {t : Text} (tame : Tame t) : Clear t :=
  clear_of_absent (b := 0x3A) (by decide) (fun member => (tame _ member).1 rfl)
    (fun member => (tame _ member).2.1 rfl) fun member => (tame _ member).2.2 rfl

/-- A name after a label is clear even though the label may end in a colon. -/
theorem tag_clear {tag : Text}
    (isTag : Vocabulary.IsTag (fun t => ∀ b ∈ t, isSpellingByte b = true ∨ 0x80 ≤ b) tag) : Clear tag := by
  have apart : ∀ label ∈ Vocabulary.tagLabels,
      (label.all fun b => b != 0x20 && b != 0x60 && b != 0x0A) = true := by
    decide
  have labels : ∀ label ∈ Vocabulary.tagLabels, ∀ b ∈ label, b ≠ 0x20 ∧ b ≠ 0x60 ∧ b ≠ 0x0A := by
    simpa [and_assoc] using apart
  have bytes : ∀ b : UInt8, isSpellingByte b = true ∨ 0x80 ≤ b → b ≠ 0x20 ∧ b ≠ 0x60 ∧ b ≠ 0x0A := by
    intro b listed
    simp only [ne_eq, ← UInt8.toNat_inj, UInt8.le_iff_toNat_le, UInt8.reduceToNat] at listed ⊢
    rcases listed with spelling | high
    · have bounds := isSpellingByte_bounds spelling
      omega
    · omega
  rcases isTag with listed | ⟨label, listed, name, spelled, rfl⟩
  · exact (tame_prose.words (Vocabulary.fixedTags_prose tag listed)).clear
  · have each : ∀ b ∈ label ++ name, b ≠ 0x20 ∧ b ≠ 0x60 ∧ b ≠ 0x0A :=
      List.forall_mem_append.mpr ⟨labels label listed, fun b member => bytes b (spelled b member)⟩
    exact clear_of_absent (b := 0x20) (by decide) (fun member => (each _ member).1 rfl)
      (fun member => (each _ member).2.1 rfl) fun member => (each _ member).2.2 rfl

theorem tag_spelled : Spelled fun t => ∀ b ∈ t, isSpellingByte b = true ∨ 0x80 ≤ b where
  nil := by simp
  append first second := List.forall_mem_append.mpr ⟨first, second⟩
  byte b listed := List.forall_mem_singleton.mpr (.inl listed)
  longS := by simp
  kelvinSign := by simp

/-- A clear text that ends in a blank, before a value. -/
def Leads (front : Text) : Prop :=
  Clear front ∧ front.getLast? = some 0x20

instance (front : Text) : Decidable (Leads front) :=
  inferInstanceAs (Decidable (Clear front ∧ front.getLast? = some 0x20))

theorem Leads.clear_append {front value : Text} (leads : Leads front) (clear : Clear value) :
    Clear (front ++ value) :=
  leads.1.append clear (.inl leads.2)

end Guide

end ScriptAtlas
