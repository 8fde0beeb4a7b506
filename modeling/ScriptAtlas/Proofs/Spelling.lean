import Mathlib.Data.FinEnum
import ScriptAtlas.Proofs.Front

/-!
The spelling of names. What classification takes from a script into its lists of names is made of word
characters and a few marks, so that every property of texts which these have and which adding one text
to another keeps is a property of all names.
-/

namespace ScriptAtlas

def isSpellingByte (b : UInt8) : Bool :=
  Pattern.isWordByte b || List.elem b (Text.ofString "@#[].")

theorem isSpellingByte_bounds {b : UInt8} (spelling : isSpellingByte b = true) :
    0x20 < b.toNat ∧ b.toNat < 0x7B ∧ b.toNat ≠ 0x3A ∧ b.toNat ≠ 0x60 := by
  have signs : Text.ofString "@#[]." = [0x40, 0x23, 0x5B, 0x5D, 0x2E] := by decide
  simp only [isSpellingByte, signs, Pattern.isWordByte, Text.isDigit, Bool.or_eq_true, Bool.and_eq_true,
    decide_eq_true_eq, beq_iff_eq, List.elem_eq_mem, List.mem_cons, List.not_mem_nil, or_false,
    UInt8.le_iff_toNat_le, ← UInt8.toNat_inj, UInt8.reduceToNat] at spelling
  omega

/-- A property of texts that every text of spelling bytes has, with the two characters that are cased
like a letter among them. -/
structure Spelled (holds : Text → Prop) : Prop where
  nil : holds []
  append : ∀ {s t : Text}, holds s → holds t → holds (s ++ t)
  byte : ∀ b, isSpellingByte b = true → holds [b]
  longS : holds [0xC5, 0xBF]
  kelvinSign : holds [0xE2, 0x84, 0xAA]

namespace Pattern

variable {holds : Text → Prop} {p q : Pattern}

/-! ### What patterns read -/

/-- Everything that the pattern can read has a property. -/
def Reads (holds : Text → Prop) (p : Pattern) : Prop :=
  ∀ c : Cursor, ∀ e ∈ p.ends c, ∃ read, c.ahead = read ++ e.ahead ∧ holds read

theorem Reads.between (reads : p.Reads holds) {c e : Cursor} (ended : e ∈ p.ends c) :
    holds (readBetween c e) := by
  obtain ⟨read, ahead, has⟩ := reads c e ended
  rw [readBetween, ahead, List.length_append, Nat.add_sub_cancel, List.take_left]
  exact has

theorem Reads.one {accepts : UInt8 → Bool} (each : ∀ b, accepts b = true → holds [b]) :
    (Pattern.one accepts).Reads holds := by
  intro c e ended
  obtain ⟨b, accepted, ahead⟩ := one_reads accepts c e ended
  exact ⟨[b], ahead, each b accepted⟩

theorem Reads.bytes {t : Text} (has : holds t) : (Pattern.bytes t).Reads holds :=
  fun c e ended => ⟨t, bytes_reads t c e ended, has⟩

theorem Reads.alt (left : p.Reads holds) (right : q.Reads holds) : (Pattern.alt p q).Reads holds := by
  intro c e ended
  rw [ends, List.mem_append] at ended
  rcases ended with first | second
  · exact left c e first
  · exact right c e second

section Spelled

variable (spelled : Spelled holds)

include spelled

theorem Reads.of_same {c e : Cursor} (same : e = c) : ∃ read, c.ahead = read ++ e.ahead ∧ holds read :=
  ⟨[], by rw [same]; rfl, spelled.nil⟩

theorem Reads.seq (first : p.Reads holds) (second : q.Reads holds) : (Pattern.seq p q).Reads holds := by
  intro c e ended
  obtain ⟨d, here, later⟩ := (mem_ends_seq p q c e).mp ended
  obtain ⟨read, ahead, has⟩ := first c d here
  obtain ⟨read', ahead', has'⟩ := second d e later
  exact ⟨read ++ read', by rw [ahead, ahead', List.append_assoc], spelled.append has has'⟩

theorem Reads.steps (body : p.Reads holds) {c e : Cursor} (steps : p.Steps c e) :
    ∃ read, c.ahead = read ++ e.ahead ∧ holds read := by
  induction steps using Relation.ReflTransGen.head_induction_on with
  | refl => exact Reads.of_same spelled rfl
  | head here _ later =>
      obtain ⟨read, ahead, has⟩ := body _ _ here
      obtain ⟨read', ahead', has'⟩ := later
      exact ⟨read ++ read', by rw [ahead, ahead', List.append_assoc], spelled.append has has'⟩

theorem Reads.many (body : p.Reads holds) : (Pattern.many p).Reads holds :=
  fun _ _ ended => Reads.steps spelled body (steps_of_many ended)

theorem Reads.few (body : p.Reads holds) : (Pattern.few p).Reads holds :=
  fun _ _ ended => Reads.steps spelled body (steps_of_few ended)

theorem Reads.some1 (body : p.Reads holds) : (Pattern.some1 p).Reads holds :=
  Reads.seq spelled body (Reads.many spelled body)

theorem Reads.wordChar : Pattern.wordChar.Reads holds :=
  Reads.alt (Reads.one fun b word => spelled.byte b (by rw [isSpellingByte, word, Bool.true_or]))
    (Reads.alt (Reads.bytes spelled.longS) (Reads.bytes spelled.kelvinSign))

end Spelled

def Spells : Pattern → Prop
  | .one accepts => ∀ b, accepts b = true → isSpellingByte b = true
  | .seq p q | .alt p q => p.Spells ∧ q.Spells
  | .many p | .few p | .mark p => p.Spells
  | .empty | .edge | .start | .stop => True

instance decidableSpells : (p : Pattern) → Decidable p.Spells
  | .one accepts => inferInstanceAs (Decidable (∀ b, accepts b = true → isSpellingByte b = true))
  | .seq p q | .alt p q =>
    have := decidableSpells p
    have := decidableSpells q
    inferInstanceAs (Decidable (p.Spells ∧ q.Spells))
  | .many p | .few p | .mark p => decidableSpells p
  | .empty | .edge | .start | .stop => .isTrue trivial

theorem spells_bytes {word : Text} (letters : word.all isSpellingByte = true) : (bytes word).Spells := by
  have one : ∀ {b}, isSpellingByte b = true → (Pattern.one (· == b)).Spells :=
    fun letter c same => eq_of_beq same ▸ letter
  induction word with
  | nil => trivial
  | cons b word ih =>
      rw [List.all_cons, Bool.and_eq_true] at letters
      cases word with
      | nil => exact one letters.1
      | cons c word => exact ⟨one letters.1, ih letters.2⟩

/-- Words of spelling bytes, without a look at what each of their bytes can be. -/
theorem spells_oneOf {words : List String}
    (letters : (words.all fun word => (Text.ofString word).all isSpellingByte) = true) :
    (oneOf words).Spells := by
  rw [oneOf]
  induction words with
  | nil => exact fun b none => by cases none
  | cons word words ih =>
      rw [List.all_cons, Bool.and_eq_true] at letters
      cases words with
      | nil => exact spells_bytes letters.1
      | cons next words => exact ⟨spells_bytes letters.1, ih letters.2⟩

theorem reads_of_spells (spelled : Spelled holds) (spells : p.Spells) : p.Reads holds := by
  induction p with
  | empty => exact fun c e ended => Reads.of_same spelled (List.mem_singleton.mp ended)
  | one accepts => exact Reads.one fun b accepted => spelled.byte b (spells b accepted)
  | seq p q first second => exact Reads.seq spelled (first spells.1) (second spells.2)
  | alt p q first second => exact Reads.alt (first spells.1) (second spells.2)
  | many p body => exact Reads.many spelled (body spells)
  | few p body => exact Reads.few spelled (body spells)
  | edge | start | stop =>
      intro c e ended
      rw [ends] at ended
      split at ended
      · exact Reads.of_same spelled (List.mem_singleton.mp ended)
      · cases ended
  | mark p body =>
      intro c e ended
      rw [ends, List.mem_map] at ended
      obtain ⟨d, here, rfl⟩ := ended
      exact body spells c d here

/-! ### What patterns mark -/

def marks : Pattern → List Pattern
  | .mark p => p.marks ++ [p]
  | .seq p q | .alt p q => p.marks ++ q.marks
  | .many p | .few p => p.marks
  | .empty | .one _ | .edge | .start | .stop => []

theorem marks_bytes (word : Text) : (bytes word).marks = [] := by
  induction word with
  | nil => rfl
  | cons b word ih =>
      cases word with
      | nil => rfl
      | cons c word => exact ih

theorem marks_oneOf (words : List String) : (oneOf words).marks = [] := by
  rw [oneOf]
  induction words with
  | nil => rfl
  | cons word words ih =>
      cases words with
      | nil => exact marks_bytes _
      | cons next words =>
          rw [List.map_cons, List.map_cons, choice, marks, lit, marks_bytes]
          · exact ih
          · simp

/-- New marks of a step from one cursor to the next have a property. -/
def NewMarks (holds : Text → Prop) (c e : Cursor) : Prop :=
  ∀ t ∈ e.marked, t ∈ c.marked ∨ holds t

theorem NewMarks.refl (c : Cursor) : NewMarks holds c c :=
  fun _ => .inl

theorem NewMarks.of_eq {c e : Cursor} (same : e = c) : NewMarks holds c e :=
  same ▸ NewMarks.refl e

theorem NewMarks.trans {c d e : Cursor} (first : NewMarks holds c d) (second : NewMarks holds d e) :
    NewMarks holds c e := by
  intro t member
  rcases second t member with earlier | has
  · exact first t earlier
  · exact .inr has

theorem NewMarks.steps (each : ∀ c, ∀ e ∈ p.ends c, NewMarks holds c e) {c e : Cursor}
    (steps : p.Steps c e) : NewMarks holds c e := by
  induction steps using Relation.ReflTransGen.trans_induction_on with
  | refl c => exact NewMarks.refl c
  | single ended => exact each _ _ ended
  | trans _ _ first second => exact first.trans second

theorem ends_marks (p : Pattern) (each : ∀ body ∈ p.marks, body.Reads holds) (c : Cursor) :
    ∀ e ∈ p.ends c, NewMarks holds c e := by
  induction p generalizing c with
  | empty =>
      intro e ended
      rw [ends, List.mem_singleton] at ended
      exact NewMarks.of_eq ended
  | one accepts =>
      intro e ended
      rw [ends] at ended
      split at ended
      · split at ended
        · rw [List.mem_singleton] at ended
          exact ended ▸ fun _ => .inl
        · cases ended
      · cases ended
  | seq p q first second =>
      intro e ended
      rw [marks, List.forall_mem_append] at each
      obtain ⟨d, here, later⟩ := (mem_ends_seq p q c e).mp ended
      exact (first each.1 c d here).trans (second each.2 d e later)
  | alt p q first second =>
      intro e ended
      rw [marks, List.forall_mem_append] at each
      rw [ends, List.mem_append] at ended
      rcases ended with left | right
      · exact first each.1 c e left
      · exact second each.2 c e right
  | many p body => exact fun e ended => NewMarks.steps (body each) (steps_of_many ended)
  | few p body => exact fun e ended => NewMarks.steps (body each) (steps_of_few ended)
  | edge | start | stop =>
      intro e ended
      rw [ends] at ended
      split at ended
      · rw [List.mem_singleton] at ended
        exact NewMarks.of_eq ended
      · cases ended
  | mark p body =>
      intro e ended
      rw [marks, List.forall_mem_append, List.forall_mem_singleton] at each
      rw [ends, List.mem_map] at ended
      obtain ⟨d, here, rfl⟩ := ended
      intro t member
      rw [List.mem_append, List.mem_singleton] at member
      rcases member with earlier | rfl
      · exact body each.1 c d here t earlier
      · exact .inr (each.2.between here)

/-! ### What searches find -/

theorem hitAt_ends {behind ahead : Text} {hit : Hit} (found : p.hitAt behind ahead = some hit) :
    ∃ e ∈ p.ends ⟨behind, ahead, []⟩, hit.text = readBetween ⟨behind, ahead, []⟩ e ∧
      hit.marked = e.marked := by
  rw [hitAt, Option.map_eq_some_iff] at found
  obtain ⟨e, first, rfl⟩ := found
  exact ⟨e, List.mem_of_mem_head? first, rfl, rfl⟩

theorem allFrom_hitAt {behind : Text} {skip : Nat} {ahead : Text} :
    ∀ hit ∈ p.allFrom behind skip ahead, ∃ behind ahead, p.hitAt behind ahead = some hit := by
  fun_induction p.allFrom behind skip ahead with
  | case1 => simp
  | case2 behind b rest skip ih => exact ih
  | case3 behind b rest hit found ih =>
      rw [List.forall_mem_cons]
      exact ⟨⟨behind, b :: rest, found⟩, ih⟩
  | case4 behind b rest found ih => exact ih

theorem all_text (reads : p.Reads holds) {t : Text} : ∀ hit ∈ p.all t, holds hit.text := by
  intro hit member
  obtain ⟨behind, ahead, found⟩ := allFrom_hitAt hit member
  obtain ⟨e, ended, text, -⟩ := hitAt_ends found
  exact text ▸ reads.between ended

theorem all_marked (each : ∀ body ∈ p.marks, body.Reads holds) {t : Text} :
    ∀ hit ∈ p.all t, ∀ m ∈ hit.marked, holds m := by
  intro hit member m marked
  obtain ⟨behind, ahead, found⟩ := allFrom_hitAt hit member
  obtain ⟨e, ended, -, same⟩ := hitAt_ends found
  rw [same] at marked
  rcases ends_marks p each _ e ended m marked with none | has
  · cases none
  · exact has

end Pattern

end ScriptAtlas
