import Mathlib.Logic.Relation
import ScriptAtlas.Block.Word
import ScriptAtlas.Proofs.Blanks

/-!
How long the texts are that a search for the end of a construct goes on with: each is no longer than
the text it was cut from, and what follows a keyword is shorter by the keyword. A scan for a governed body
goes from token to token, and the body is an end of the text.
-/

namespace ScriptAtlas

namespace Text

theorem glyphsFrom_length_le (skip : Nat) (t : Text) : (glyphsFrom skip t).length ≤ t.length := by
  fun_induction glyphsFrom skip t with
  | case1 => simp
  | case2 skip b rest ih => exact Nat.le_succ_of_le ih
  | case3 b rest c more found ih => simpa using ih
  | case4 b rest found ih => simpa using ih

theorem ofChars_length_le (chars : List Char) : (ofChars chars).length ≤ 4 * chars.length := by
  induction chars with
  | nil => simp [ofChars]
  | cons c rest ih =>
      have four := Char.utf8Size_le_four c
      simp only [ofChars, List.flatMap_cons, List.length_append, String.length_utf8EncodeChar,
        List.length_cons] at ih ⊢
      omega

/-- Upper-casing keeps the number of characters but not always that of bytes. -/
theorem upper_length_le (t : Text) : t.upper.length ≤ 4 * t.length := by
  rw [upper]
  split
  · rw [List.length_map]
    omega
  · have bytes := ofChars_length_le (t.chars.map upperChar)
    have glyphs : t.chars.length ≤ t.length := by
      rw [chars, List.length_map]
      exact glyphsFrom_length_le 0 t
    rw [List.length_map] at bytes
    omega

end Text

namespace Pattern

/-- One cursor after another, each an end of the pattern begun at the one before. -/
def Steps (p : Pattern) : Cursor → Cursor → Prop :=
  Relation.ReflTransGen fun c d => d ∈ p.ends c

theorem steps_of_mem_repeatGreedy {p : Pattern} {bound : Nat} {c e : Cursor}
    (ended : e ∈ repeatGreedy p.ends bound c) : p.Steps c e := by
  induction bound generalizing c with
  | zero =>
      rw [repeatGreedy, List.mem_singleton] at ended
      exact ended ▸ .refl
  | succ bound ih =>
      rw [repeatGreedy, List.mem_append, List.mem_flatMap, List.mem_singleton] at ended
      rcases ended with ⟨d, here, later⟩ | rfl
      · exact .head here (ih later)
      · exact .refl

theorem steps_of_mem_repeatLazy {p : Pattern} {bound : Nat} {c e : Cursor}
    (ended : e ∈ repeatLazy p.ends bound c) : p.Steps c e := by
  induction bound generalizing c with
  | zero =>
      rw [repeatLazy, List.mem_singleton] at ended
      exact ended ▸ .refl
  | succ bound ih =>
      rw [repeatLazy, List.mem_cons, List.mem_flatMap] at ended
      rcases ended with rfl | ⟨d, here, later⟩
      · exact .refl
      · exact .head here (ih later)

theorem steps_of_many {p : Pattern} {c e : Cursor} (ended : e ∈ (many p).ends c) : p.Steps c e :=
  steps_of_mem_repeatGreedy ended

theorem steps_of_few {p : Pattern} {c e : Cursor} (ended : e ∈ (few p).ends c) : p.Steps c e :=
  steps_of_mem_repeatLazy ended

theorem readBetween_length_le (c e : Cursor) : (readBetween c e).length ≤ c.ahead.length := by
  simp only [readBetween, List.length_take]
  omega

/-- What a pattern leaves ahead and what its marks have read is no longer than what was ahead. -/
def Within (c e : Cursor) : Prop :=
  e.ahead.length ≤ c.ahead.length ∧ ∀ text ∈ e.marked, text ∈ c.marked ∨ text.length ≤ c.ahead.length

theorem Within.refl (c : Cursor) : Within c c :=
  ⟨Nat.le_refl _, fun _ member => .inl member⟩

theorem Within.trans {c d e : Cursor} (first : Within c d) (second : Within d e) : Within c e := by
  refine ⟨Nat.le_trans second.1 first.1, ?_⟩
  intro text member
  rcases second.2 text member with old | short
  · exact first.2 text old
  · exact .inr (Nat.le_trans short first.1)

theorem Within.steps {p : Pattern} (each : ∀ c, ∀ e ∈ p.ends c, Within c e) {c e : Cursor}
    (steps : p.Steps c e) : Within c e := by
  induction steps using Relation.ReflTransGen.trans_induction_on with
  | refl c => exact Within.refl c
  | single ended => exact each _ _ ended
  | trans _ _ first second => exact first.trans second

theorem ends_within (p : Pattern) (c : Cursor) : ∀ e ∈ p.ends c, Within c e := by
  induction p generalizing c with
  | empty =>
      intro e member
      rw [ends, List.mem_singleton] at member
      exact member ▸ Within.refl c
  | one accepts =>
      intro e member
      rw [ends] at member
      split at member
      · rename_i b rest ahead
        split at member
        · rw [List.mem_singleton] at member
          subst member
          exact ⟨by simp [ahead], fun _ old => .inl old⟩
        · cases member
      · cases member
  | seq first second firstIh secondIh =>
      intro e member
      rw [ends, List.mem_flatMap] at member
      obtain ⟨d, stepped, rest⟩ := member
      exact (firstIh c d stepped).trans (secondIh d e rest)
  | alt preferred other preferredIh otherIh =>
      intro e member
      rw [ends, List.mem_append] at member
      rcases member with left | right
      · exact preferredIh c e left
      · exact otherIh c e right
  | many body ih => exact fun e member => Within.steps ih (steps_of_many member)
  | few body ih => exact fun e member => Within.steps ih (steps_of_few member)
  | edge | start | stop =>
      intro e member
      rw [ends] at member
      split at member
      · rw [List.mem_singleton] at member
        exact member ▸ Within.refl c
      · cases member
  | mark body ih =>
      intro e member
      rw [ends, List.mem_map] at member
      obtain ⟨d, ended, rfl⟩ := member
      obtain ⟨shorter, old⟩ := ih c d ended
      refine ⟨shorter, ?_⟩
      intro text member
      rw [List.mem_append, List.mem_singleton] at member
      rcases member with earlier | rfl
      · exact old text earlier
      · exact .inr (readBetween_length_le c d)

theorem hitAt_marked_length (p : Pattern) (behind ahead : Text) (hit : Hit)
    (found : p.hitAt behind ahead = some hit) : ∀ text ∈ hit.marked, text.length ≤ ahead.length := by
  rw [hitAt, Option.map_eq_some_iff] at found
  obtain ⟨e, first, rfl⟩ := found
  intro text member
  have within := ends_within p ⟨behind, ahead, []⟩ e (List.mem_of_mem_head? first)
  rcases within.2 text member with none | short
  · cases none
  · exact short

theorem findFrom_marked_length (p : Pattern) (behind ahead : Text) (hit : Hit)
    (found : p.findFrom behind ahead = some hit) :
    ∀ text ∈ hit.marked, text.length ≤ ahead.length := by
  induction ahead generalizing behind with
  | nil => exact hitAt_marked_length p behind [] hit found
  | cons b rest ih =>
      rw [findFrom] at found
      split at found
      · rename_i first here
        cases found
        exact hitAt_marked_length p behind (b :: rest) hit here
      · intro text member
        have short := ih (b :: behind) found text member
        simp only [List.length_cons]
        omega

end Pattern

namespace Word

open Pattern

theorem leading_length_le (code : Text) : (leading code).length ≤ code.length := by
  cases code with
  | nil => simp [leading]
  | cons b rest =>
      rw [leading]
      split
      · exact (List.takeWhile_sublist isNameByte).length_le
      · simp

theorem afterLeading_length (code : Text) :
    (afterLeading code).length + (leading code).length ≤ code.length := by
  have cut := Text.trim_length_le (code.drop (leading code).length)
  have front := leading_length_le code
  rw [List.length_drop] at cut
  rw [afterLeading]
  omega

theorem afterEndElse_length (code rest : Text) (found : afterEndElse code = some rest) :
    rest.length ≤ code.length := by
  rw [afterEndElse, Option.bind_eq_some_iff] at found
  obtain ⟨hit, here, first⟩ := found
  exact findFrom_marked_length endElse [] code hit here rest (List.mem_of_mem_head? first)

theorem leadsWith_singleton (code word : Text) :
    leadsWith code [word] = true ↔ leading code = word := by
  simp [leadsWith]

theorem leadsWith_control (code : Text) :
    leadsWith code ["IF", "WHILE"] = true ↔
      leadsWith code ["IF"] = true ∨ leadsWith code ["WHILE"] = true := by
  simp [leadsWith]

/-! ### Scans for a governed body -/

/-- The bytes up to the next blank or parenthesis. -/
def token (text : Text) : Text :=
  text.takeWhile isTokenByte

/-- Whether the body that a condition governs begins here. A trigger asks with `UPDATE(column)` whether a
column was written; that is part of a condition. -/
def beginsGoverned (text : Text) : Bool :=
  leadsWith (token text) bodyStarters &&
    !(token text == "UPDATE" && (text.drop (token text).length).head? == some openParen)

theorem scanCondition_token {b : UInt8} (solid : isTokenByte b = true) (inToken : Bool) (depth : Int)
    (rest : Text) :
    scanCondition inToken depth (b :: rest) =
      if inToken || depth > 0 then scanCondition true depth rest
      else if beginsGoverned (b :: rest) then .body (Text.trim (b :: rest)) depth
      else scanCondition true depth rest := by
  simp only [isTokenByte, Bool.and_eq_true, bne_iff_ne, ne_eq, Bool.not_eq_true'] at solid
  obtain ⟨⟨gap, opens⟩, closes⟩ := solid
  rw [scanCondition]
  simp only [beq_eq_false_iff_ne.mpr opens, beq_eq_false_iff_ne.mpr closes, gap, Bool.false_eq_true, if_false]
  rfl

theorem scanCondition_delimiter {b : UInt8} (delimits : isTokenByte b = false) :
    ∃ shift : Int, ∀ (inToken : Bool) (depth : Int) (rest : Text),
      scanCondition inToken depth (b :: rest) = scanCondition false (depth + shift) rest := by
  by_cases opens : b = openParen
  · exact ⟨1, fun inToken depth rest => by rw [scanCondition, if_pos (by simp [opens])]⟩
  by_cases closes : b = closeParen
  · exact ⟨-1, fun inToken depth rest => by
      rw [scanCondition, if_neg (by simp [opens]), if_pos (by simp [closes]), Int.sub_eq_add_neg]⟩
  · have gap : isGapByte b = true := by simpa [isTokenByte, opens, closes] using delimits
    exact ⟨0, fun inToken depth rest => by
      rw [scanCondition, if_neg (by simp [opens]), if_neg (by simp [closes]), if_pos gap, Int.add_zero]⟩

theorem scanCondition_body {inToken : Bool} {depth final : Int} {text body : Text}
    (found : scanCondition inToken depth text = .body body final) :
    ∃ tail, tail <:+ text ∧ body = Text.trim tail := by
  induction text generalizing inToken depth with
  | nil => cases found
  | cons b text ih =>
      have later : ∀ {inToken depth}, scanCondition inToken depth text = .body body final →
          ∃ tail, tail <:+ b :: text ∧ body = Text.trim tail := by
        intro inToken depth found
        obtain ⟨tail, suffix, trimmed⟩ := ih found
        exact ⟨tail, suffix.trans (List.suffix_cons b text), trimmed⟩
      by_cases solid : isTokenByte b = true
      · rw [scanCondition_token solid] at found
        split at found
        · exact later found
        · split at found
          · cases found
            exact ⟨b :: text, List.suffix_refl _, rfl⟩
          · exact later found
      · obtain ⟨shift, delimits⟩ := scanCondition_delimiter (Bool.eq_false_iff.mpr solid)
        rw [delimits] at found
        exact later found

theorem splitCondition_body_length (text rest : Text) (depth final : Int)
    (found : splitCondition text depth = .body rest final) : rest.length ≤ text.length := by
  obtain ⟨tail, suffix, rfl⟩ := scanCondition_body found
  exact Nat.le_trans (Text.trim_length_le tail) suffix.length_le

end Word

namespace Line

theorem stripFrom_length_le (inside : Inside) (t : Text) :
    (stripFrom inside t).1.length ≤ t.length := by
  fun_induction stripFrom inside t <;> simp_all <;> omega

theorem read_code_length_le (raw : Text) (index : Int) :
    (read raw index).1.code.length ≤ 4 * raw.length := by
  rw [read]
  dsimp only
  split
  · simp
  · split
    · simp
    · have trimmed := Text.trim_length_le raw
      have stripped := stripFrom_length_le .code raw.trim
      have code := Text.trim_length_le (stripFrom .code raw.trim).1
      have upper := Text.upper_length_le (Text.trim (stripFrom .code raw.trim).1)
      simp only [strip, ofCode]
      omega

end Line

end ScriptAtlas
