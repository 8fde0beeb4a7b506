import ScriptAtlas.Block.Extent
import ScriptAtlas.Proofs.Lines
import ScriptAtlas.Proofs.Words

/-!
Conditions over several lines. A scan for the governed body takes nothing but the depth of the parentheses
from one line to the next, so a line end counts as a blank: the condition of a branch or loop ends at the
same body whether it stands on one line or on several.
-/

namespace ScriptAtlas

namespace Word

open Pattern

/-! ### A blank between two texts -/

theorem token_blank (text rest : Text) : token (text ++ 0x20 :: rest) = token text := by
  induction text with
  | nil => rfl
  | cons b text ih =>
      rw [token, token, List.cons_append, List.takeWhile_cons, List.takeWhile_cons, ← token, ← token, ih]

theorem token_length_le (text : Text) : (token text).length ≤ text.length :=
  (List.takeWhile_sublist _).length_le

/-- A blank behind a text changes nothing of what begins in it, not even at its end. -/
theorem beginsGoverned_blank (text rest : Text) :
    beginsGoverned (text ++ 0x20 :: rest) = beginsGoverned text := by
  have next : (((text ++ 0x20 :: rest).drop (token text).length).head? == some openParen) =
      ((text.drop (token text).length).head? == some openParen) := by
    rw [List.drop_append_of_le_length (token_length_le text)]
    cases text.drop (token text).length <;> rfl
  rw [beginsGoverned, beginsGoverned, token_blank, next]

theorem scanCondition_append {inToken : Bool} {depth between : Int} {text : Text}
    (ongoing : scanCondition inToken depth text = .ongoing between) (rest : Text) :
    scanCondition inToken depth (text ++ 0x20 :: rest) = scanCondition false between rest := by
  induction text generalizing inToken depth with
  | nil =>
      obtain rfl : depth = between := by simpa [scanCondition] using ongoing
      rfl
  | cons b text ih =>
      -- the scan goes past this byte, and past it in the same way where more text follows
      by_cases solid : isTokenByte b = true
      · rw [scanCondition_token solid] at ongoing
        rw [List.cons_append, scanCondition_token solid, ← List.cons_append, beginsGoverned_blank]
        split at ongoing
        · rename_i passed
          rw [if_pos passed, ih ongoing]
        · rename_i here
          split at ongoing
          · cases ongoing
          · rename_i other
            rw [if_neg here, if_neg other, ih ongoing]
      · obtain ⟨shift, delimits⟩ := scanCondition_delimiter (Bool.eq_false_iff.mpr solid)
        rw [delimits] at ongoing
        rw [List.cons_append, delimits, ih ongoing]

theorem splitCondition_append {first : Text} {depth between : Int}
    (ongoing : splitCondition first depth = .ongoing between) (second : Text) :
    splitCondition (first ++ " " ++ second) depth = splitCondition second between := by
  rw [List.append_assoc]
  exact scanCondition_append ongoing second

theorem splitCondition_of_beginsGoverned {text : Text} (begins : beginsGoverned text = true) {depth : Int}
    (closed : depth ≤ 0) : splitCondition text depth = .body text.trim depth := by
  cases text with
  | nil => cases begins
  | cons b rest =>
      cases solid : isTokenByte b with
      | true => rw [splitCondition, scanCondition_token solid, if_neg (by simpa using closed), if_pos begins]
      | false =>
          have empty : token (b :: rest) = [] := by
            rw [token, List.takeWhile_cons, if_neg (by simp [solid])]
          rw [beginsGoverned, empty, Bool.and_eq_true] at begins
          exact absurd begins.1 (by decide)

end Word

namespace Script

open Word

/-! ### The lines of a condition -/

def codeAfter (s : Script) (i j : Nat) : List Text :=
  ((s.slice (i + 1) (j + 1)).filter Line.isCode).map Line.code

theorem slice_quiet {s : Script} {i j : Nat} (quiet : ∀ k, i ≤ k → k < j → (s.line k).isCode = false) :
    (s.slice i j).filter Line.isCode = [] := by
  refine List.filter_eq_nil_iff.mpr fun l member => ?_
  obtain ⟨k, after, below, -, rfl⟩ := (mem_slice_iff s _ _ l).mp member
  simp [quiet k after below]

theorem codeAfter_next {s : Script} {i limit next j : Nat} (found : s.nextCode (i + 1) limit = some next)
    (reached : next ≤ j) : s.codeAfter i j = (s.line next).code :: s.codeAfter next j := by
  obtain ⟨low, -, code, before⟩ := nextCode_eq_some s (i + 1) limit next found
  rw [codeAfter, codeAfter, s.slice_append (i + 1) next (j + 1) low (by omega),
    s.slice_append next (next + 1) (j + 1) (by omega) (by omega),
    slice_singleton s (lt_size_of_isCode s next code), List.filter_append, slice_quiet before, List.nil_append,
    List.singleton_append, List.filter_cons, if_pos code, List.map_cons]

/-- A condition whose text starts on line `i` with the code that follows up to line `j`, on one line. -/
def onOneLine (s : Script) (i j : Nat) (condition : Text) : Text :=
  Text.join " " (condition :: s.codeAfter i j)

theorem onOneLine_quiet {s : Script} {i j : Nat}
    (quiet : ∀ k, i + 1 ≤ k → k < j + 1 → (s.line k).isCode = false) (condition : Text) :
    s.onOneLine i j condition = condition := by
  rw [onOneLine, codeAfter, slice_quiet quiet]
  rfl

theorem onOneLine_self (s : Script) (i : Nat) (condition : Text) : s.onOneLine i i condition = condition :=
  onOneLine_quiet (fun _ after below => absurd below (by omega)) condition

theorem onOneLine_next {s : Script} {i limit next j : Nat} (found : s.nextCode (i + 1) limit = some next)
    (reached : next ≤ j) (condition : Text) :
    s.onOneLine i j condition = condition ++ " " ++ s.onOneLine next j (s.line next).code := by
  rw [onOneLine, codeAfter_next found reached]
  rfl

/-- A condition that is followed to its body says the same on one line. It ends inside the last line, or
that line is the body as a whole. -/
theorem followCondition_onOneLine (s : Script) (limit latest count i : Nat) (text : Text) (depth : Int)
    (line : Nat) (body : Text)
    (found : s.followCondition limit latest count i text depth = some (line, body)) :
    i ≤ line ∧ ∃ final,
      splitCondition (s.onOneLine i line text) depth = .body body.trim final ∨
      (i < line ∧ body = (s.line line).code) ∧ final ≤ 0 ∧
        splitCondition (s.onOneLine i line text) depth = splitCondition body final := by
  induction count generalizing i text depth with
  | zero => cases found
  | succ count ih =>
      rw [followCondition] at found
      split at found
      · cases found
      · split at found
        · -- the body begins on this line
          rename_i rest final here
          cases found
          obtain ⟨tail, -, trimmed⟩ := scanCondition_body here
          refine ⟨Nat.le_refl _, final, .inl ?_⟩
          rw [onOneLine_self, trimmed, Text.trim_trim, ← trimmed]
          exact here
        · rename_i between ongoing
          split at found
          · cases found
          · rename_i next following
            obtain ⟨after, -⟩ := nextCode_eq_some s (i + 1) limit next following
            dsimp only at found
            split at found
            · -- the condition takes in the next code line
              obtain ⟨reached, final, outcome⟩ := ih next _ _ found
              refine ⟨by omega, final, ?_⟩
              rw [onOneLine_next following reached, splitCondition_append ongoing]
              exact outcome.imp_right fun ⟨⟨later, whole⟩, closed, same⟩ => ⟨⟨by omega, whole⟩, closed, same⟩
            · -- the next code line is the body
              rename_i ended
              cases found
              refine ⟨by omega, between, .inr ⟨⟨by omega, rfl⟩, ?_, ?_⟩⟩
              · simp only [Bool.or_eq_true, decide_eq_true_eq, not_or] at ended
                omega
              · rw [onOneLine_next following (Nat.le_refl _), splitCondition_append ongoing, onOneLine_self]

/-- Where the search gives up, all the code that it may look at holds no body. -/
theorem followCondition_none (s : Script) (limit latest count i : Nat) (text : Text) (depth : Int)
    (inside : i < limit) (near : i ≤ latest) (enough : latest < i + count)
    (absent : s.followCondition limit latest count i text depth = none) :
    ∃ final, splitCondition (s.onOneLine i (min (limit - 1) latest) text) depth = .ongoing final := by
  induction count generalizing i text depth with
  | zero => omega
  | succ count ih =>
      rw [followCondition, if_neg (by simp; omega)] at absent
      split at absent
      · cases absent
      · rename_i between ongoing
        split at absent
        · -- no code is left
          rename_i left
          refine ⟨between, ?_⟩
          rw [onOneLine_quiet fun k after below => nextCode_eq_none s _ _ left k after (by omega)]
          exact ongoing
        · rename_i next following
          obtain ⟨after, below, -, quiet⟩ := nextCode_eq_some s (i + 1) limit next following
          dsimp only at absent
          split at absent
          · by_cases reached : next ≤ latest
            · obtain ⟨final, rest⟩ := ih next _ _ below reached (by omega) absent
              refine ⟨final, ?_⟩
              rw [onOneLine_next following (by omega), splitCondition_append ongoing]
              exact rest
            · -- the next code lies behind the last line that counts
              refine ⟨between, ?_⟩
              rw [onOneLine_quiet fun k after below => quiet k after (by omega)]
              exact ongoing
          · cases absent

theorem conditionEnd_onOneLine {s : Script} {limit i line : Nat} {condition body : Text}
    (found : s.conditionEnd limit i condition = some (line, body)) :
    (∃ depth, splitCondition (s.onOneLine i line condition) 0 = .body body.trim depth) ∨
      i < line ∧ body = (s.line line).code ∧ beginsGoverned body = false ∧
        ∃ depth ≤ 0, splitCondition (s.onOneLine i line condition) 0 = splitCondition body depth := by
  obtain ⟨-, final, here | ⟨⟨later, whole⟩, closed, same⟩⟩ :=
    s.followCondition_onOneLine limit _ _ i condition 0 line body found
  · exact .inl ⟨final, here⟩
  · cases begins : beginsGoverned body with
    | true => exact .inl ⟨final, same.trans (splitCondition_of_beginsGoverned begins closed)⟩
    | false => exact .inr ⟨later, whole, rfl, final, closed, same⟩

theorem conditionEnd_none {s : Script} {limit i : Nat} {condition : Text} (inside : i < limit)
    (absent : s.conditionEnd limit i condition = none) :
    ∃ depth, splitCondition (s.onOneLine i (min (limit - 1) (i + conditionWindow)) condition) 0 =
      .ongoing depth :=
  s.followCondition_none limit _ _ i condition 0 inside (by omega) (by omega) absent

end Script

namespace Word

open Script

/-- What a scan of the first text leaves open, a scan of the second text decides as if nothing but a blank
stood between them. So a condition that is followed over several lines is split at the body at which it is
split on one line. But a line behind a condition that ends with its line is taken as the body whatever
word it begins with; where this is no word for a body, the scan of the one line goes on in it. Where no
body is found, the one line has none either. -/
theorem splitCondition_composes :
    (∀ (first second : Text) (depth between : Int), splitCondition first depth = .ongoing between →
      splitCondition (first ++ " " ++ second) depth = splitCondition second between) ∧
    ∀ (s : Script) (limit i : Nat) (condition : Text),
      (∀ line body, s.conditionEnd limit i condition = some (line, body) →
        (∃ depth, splitCondition (s.onOneLine i line condition) 0 = .body body.trim depth) ∨
        i < line ∧ body = (s.line line).code ∧ beginsGoverned body = false ∧
          ∃ depth ≤ 0, splitCondition (s.onOneLine i line condition) 0 = splitCondition body depth) ∧
      (i < limit → s.conditionEnd limit i condition = none →
        ∃ depth, splitCondition (s.onOneLine i (min (limit - 1) (i + conditionWindow)) condition) 0 =
          .ongoing depth) :=
  ⟨fun _ second _ _ ongoing => splitCondition_append ongoing second,
    fun _ _ _ _ => ⟨fun _ _ found => conditionEnd_onOneLine found,
      fun inside absent => conditionEnd_none inside absent⟩⟩

/-- A condition of a trigger with parentheses open at the end of its first line, and a condition that no
code follows. -/
theorem splitCondition_composes_trigger :
    let s := Script.ofLines [Text.ofString "IF (UPDATE(Price)", Text.ofString "-- or renamed",
      Text.ofString "OR UPDATE (Name)) UPDATE Log SET N = 1", Text.ofString "WHILE @i > 0"]
    let condition : Text := "(UPDATE(PRICE)"
    let last : Text := "OR UPDATE (NAME)) UPDATE LOG SET N = 1"
    let body : Text := "UPDATE LOG SET N = 1"
    splitCondition condition 0 = .ongoing 1 ∧
      splitCondition (condition ++ " " ++ last) 0 = splitCondition last 1 ∧
      s.conditionEnd 4 0 condition = some (2, body) ∧
      ((∃ depth, splitCondition (s.onOneLine 0 2 condition) 0 = .body body.trim depth) ∨
        0 < 2 ∧ body = (s.line 2).code ∧ beginsGoverned body = false ∧
          ∃ depth ≤ 0, splitCondition (s.onOneLine 0 2 condition) 0 = splitCondition body depth) ∧
      3 < 4 ∧ s.conditionEnd 4 3 "@I > 0" = none ∧
      ∃ depth, splitCondition (s.onOneLine 3 (min (4 - 1) (3 + conditionWindow)) "@I > 0") 0 =
        .ongoing depth := by
  intro s condition last body
  have ongoing : splitCondition condition 0 = .ongoing 1 := by decide +kernel
  have found : s.conditionEnd 4 0 condition = some (2, body) := by decide +kernel
  have absent : s.conditionEnd 4 3 "@I > 0" = none := by decide +kernel
  exact ⟨ongoing, splitCondition_composes.1 condition last 0 1 ongoing, found,
    (splitCondition_composes.2 s 4 0 condition).1 2 body found, by decide, absent,
    (splitCondition_composes.2 s 4 3 "@I > 0").2 (by decide) absent⟩

/-- The line behind this condition begins with no word for a body. It is the body all the same, and on one
line the condition has none. -/
theorem conditionEnd_drop :
    let s := Script.ofLines [Text.ofString "IF @a = 1", Text.ofString "DROP TABLE t"]
    let body : Text := "DROP TABLE T"
    s.conditionEnd 2 0 "@A = 1" = some (1, body) ∧
      s.onOneLine 0 1 "@A = 1" = "@A = 1 DROP TABLE T" ∧
      splitCondition (s.onOneLine 0 1 "@A = 1") 0 = .ongoing 0 := by
  decide +kernel

end Word

end ScriptAtlas
