import ScriptAtlas.Block.Extent
import ScriptAtlas.Proofs.Statement
import ScriptAtlas.Proofs.Words

/-!
The search for the end of a construct, taken apart into moves. A search answers, goes on as another
search, or lets another search end first and then looks for an `ELSE`. Every end that is found lies
between the line where the search starts and the limit.
-/

namespace ScriptAtlas

open Word

namespace Script

/-! ### Where ends are found -/

theorem closingLine_bounds (s : Script) (count : Nat) (depth : Int) (i last : Nat)
    (found : s.closingLine count depth i = some last) : i ≤ last ∧ last < i + count := by
  induction count generalizing depth i with
  | zero => simp [closingLine] at found
  | succ count ih =>
      rw [closingLine] at found
      split at found
      · cases found
        omega
      · have bounds := ih _ (i + 1) found
        omega

theorem balancedEnd_bounds (s : Script) (limit i : Nat) (depth : Int) (last : Nat)
    (inside : i < limit) (found : s.balancedEnd limit i depth = some last) :
    i ≤ last ∧ last < limit := by
  rw [balancedEnd] at found
  split at found
  · cases found
    omega
  · have bounds := closingLine_bounds s _ depth (i + 1) last found
    omega

theorem guardedEnd_bounds (s : Script) (limit i last : Nat) (inside : i < limit)
    (found : s.guardedEnd limit i = some last) : i < last ∧ last < limit := by
  simp only [guardedEnd, Option.bind_eq_bind, Option.bind_eq_some_iff] at found
  obtain ⟨tryClose, closed, handler, next, found⟩ := found
  have first := balancedEnd_bounds s limit i _ tryClose inside closed
  obtain ⟨after, before, _⟩ := nextCode_eq_some s (tryClose + 1) limit handler next
  split at found
  · have second := balancedEnd_bounds s limit handler _ last before found
    omega
  · cases found

theorem followCondition_body (s : Script) (limit latest count i : Nat) (text : Text) (depth : Int)
    (line : Nat) (body : Text)
    (found : s.followCondition limit latest count i text depth = some (line, body)) :
    i < limit ∧ ((line = i ∧ ∃ final, splitCondition text depth = .body body final) ∨
      (i < line ∧ line < limit ∧ body.length ≤ (s.line line).code.length)) := by
  induction count generalizing i text depth with
  | zero => simp [followCondition] at found
  | succ count ih =>
      rw [followCondition] at found
      split at found
      · cases found
      · rename_i near
        have inside : i < limit := by simp at near; omega
        refine ⟨inside, ?_⟩
        split at found
        · rename_i rest final here
          cases found
          exact .inl ⟨rfl, final, here⟩
        · split at found
          · cases found
          · rename_i next following
            obtain ⟨after, before, _⟩ := nextCode_eq_some s (i + 1) limit next following
            dsimp only at found
            split at found
            · rcases ih next _ _ found with ⟨_, ⟨rfl, final, here⟩ | ⟨later, below, short⟩⟩
              · exact .inr ⟨by omega, by omega, splitCondition_body_length _ body _ final here⟩
              · exact .inr ⟨by omega, below, short⟩
            · cases found
              exact .inr ⟨by omega, by omega, Nat.le_refl _⟩

theorem conditionEnd_body (s : Script) (limit i : Nat) (condition : Text) (line : Nat) (body : Text)
    (found : s.conditionEnd limit i condition = some (line, body)) :
    i < limit ∧ ((line = i ∧ ∃ final, splitCondition condition 0 = .body body final) ∨
      (i < line ∧ line < limit ∧ body.length ≤ (s.line line).code.length)) :=
  followCondition_body s limit _ _ i condition 0 line body found

theorem conditionEnd_of_body (s : Script) (limit i : Nat) (condition body : Text) (final : Int)
    (inside : i < limit) (here : splitCondition condition 0 = .body body final) :
    s.conditionEnd limit i condition = some (i, body) := by
  have near : ¬ (decide (limit ≤ i) || decide (i + conditionWindow < i)) = true := by
    simp only [Bool.or_eq_true, decide_eq_true_eq]
    omega
  rw [conditionEnd, followCondition, if_neg near, here]

theorem bodyStart_line (s : Script) (limit i : Nat) (text : Text) (line : Nat) (body : Text)
    (found : s.bodyStart limit i text = some (line, body)) :
    (line = i ∧ body = text ∧ text ≠ []) ∨
      (text = [] ∧ i < line ∧ line < limit ∧ body = (s.line line).code) := by
  rw [bodyStart] at found
  split at found
  · rename_i empty
    split at found
    · rename_i next following
      obtain ⟨after, before, _⟩ := nextCode_eq_some s (i + 1) limit next following
      split at found
      · cases found
      · cases found
        exact .inr ⟨by simpa using empty, by omega, before, rfl⟩
    · cases found
  · rename_i full
    cases found
    exact .inl ⟨rfl, rfl, by simpa using full⟩

theorem closedFrom_bounds (s : Script) (earliest count : Nat) (depth : Int) (i last : Nat)
    (found : s.closedFrom earliest count depth i = some last) : i ≤ last ∧ last < i + count := by
  induction count generalizing depth i with
  | zero => simp [closedFrom] at found
  | succ count ih =>
      rw [closedFrom] at found
      split at found
      · cases found
        omega
      · have bounds := ih _ (i + 1) found
        omega

theorem cappedEnd_bounds (s : Script) (limit i cap last : Nat)
    (found : s.cappedEnd limit i cap = some last) : i ≤ last ∧ last < limit := by
  have bounds := closedFrom_bounds s _ _ 0 i last found
  omega

theorem followDeclaration_bounds (s : Script) (limit count room skip last : Nat) (depth : Int)
    (i stop : Nat) (inside : last < limit) (covered : i + count ≤ limit)
    (found : s.followDeclaration limit count room skip last depth i = some stop)
    (started : last ≤ i ∨ last < i + skip) : last ≤ stop ∧ stop < limit := by
  induction count generalizing room skip last depth i with
  | zero =>
      simp only [followDeclaration] at found
      cases found
      omega
  | succ count ih =>
      cases skip with
      | succ skip =>
          rw [followDeclaration] at found
          exact ih _ skip last depth (i + 1) inside (by omega) found (by omega)
      | zero =>
          cases room with
          | zero => simp [followDeclaration] at found
          | succ room =>
              have reached : last ≤ i := by omega
              rw [followDeclaration] at found
              -- A line without code, in parentheses, behind the declarations, of a cursor, of a variable.
              split at found
              · exact ih room 0 last depth (i + 1) inside (by omega) found (by omega)
              · split at found
                · have later := ih room 0 i _ (i + 1) (by omega) (by omega) found (by omega)
                  omega
                · split at found
                  · cases found
                    omega
                  · split at found
                    · have start := le_statementExtent_last s i (s.line i).code limit
                      have stops := statementExtent_lt s i (s.line i).code limit (by omega)
                      have later := ih room _ _ depth (i + 1) stops (by omega) found (by omega)
                      omega
                    · have later := ih room 0 i _ (i + 1) (by omega) (by omega) found (by omega)
                      omega

theorem declarationEnd_bounds (s : Script) (limit i last : Nat) (inside : i < limit)
    (found : s.declarationEnd limit i = some last) : i ≤ last ∧ last < limit := by
  rw [declarationEnd] at found
  split at found
  · rename_i stop followed
    cases found
    exact followDeclaration_bounds s limit _ _ 0 i 0 i last inside (by omega) followed (by omega)
  · exact cappedEnd_bounds s limit i _ last found

theorem statementEnd_bounds (s : Script) (limit i last : Nat) (inside : i < limit)
    (found : s.statementEnd limit i = some last) : i ≤ last ∧ last < limit := by
  rw [statementEnd] at found
  split at found
  · cases found
    exact ⟨le_statementExtent_last s i _ limit, statementExtent_lt s i _ limit inside⟩
  · exact cappedEnd_bounds s limit i _ last found

end Script

/-! ### Moves of a search -/

/-- A search for the end of a construct: of a branch or loop with its condition, of a body, of the
`ELSE` chain after a line, or of what follows an `ELSE`. -/
inductive EndSearch where
  | branch (line : Nat) (condition : Text)
  | loop (line : Nat) (condition : Text)
  | body (line : Nat) (text : Text)
  | chain (line : Nat)
  | other (line : Nat) (text : Text)

inductive SearchMove where
  | answer (last : Option Nat)
  | enter (next : EndSearch)
  /-- Lets the other search end, then goes on to the `ELSE` chain there, unless it ended no later than
  the floor. -/
  | extend (first : EndSearch) (floor : Option Nat)

namespace EndSearch

def line : EndSearch → Nat
  | branch line _ | loop line _ | body line _ | chain line | other line _ => line

def run (s : Script) (limit steps : Nat) : EndSearch → Extent
  | branch i condition => s.branchEnd limit steps i condition
  | loop i condition => s.loopEnd limit steps i condition
  | body i text => s.bodyEnd limit steps i text
  | chain i => s.elseEnd limit steps i
  | other i text => s.elseBody limit steps i text

def move (s : Script) (limit : Nat) : EndSearch → SearchMove
  | branch i condition => .extend (loop i condition) none
  | loop i condition =>
    match s.conditionEnd limit i condition with
    | some (line, text) => .enter (body line text)
    | none => .answer none
  | body i text =>
    match s.bodyStart limit i text with
    | none => .answer none
    | some (i, text) =>
      if beginsTry text then .answer (s.guardedEnd limit i)
      else if beginsBlock text then .answer (s.balancedEnd limit i (Line.nestingOf text))
      else if leadsWith text ["IF"] then .enter (branch i (afterLeading text))
      else if leadsWith text ["WHILE"] then .enter (loop i (afterLeading text))
      else .answer (some (s.statementExtent i text limit).last)
  | chain i =>
    match afterEndElse (s.line i).code with
    | some rest => .extend (other i rest) (some i)
    | none =>
      match s.nextCode (i + 1) limit with
      | none => .answer (some i)
      | some next =>
        if leadsWith (s.line next).code ["ELSE"] then
          .extend (other next (afterLeading (s.line next).code)) none
        else .answer (some i)
  | other i text =>
    if leadsWith text ["IF"] then .enter (loop i (afterLeading text)) else .enter (body i text)

/-- What a search comes to after the search that it let end first. -/
def afterFirst (s : Script) (limit steps : Nat) (floor : Option Nat) (last : Nat) : Extent :=
  match floor with
  | some i => if last ≤ i then .found i else (chain last).run s limit steps
  | none => (chain last).run s limit steps

def outcome (s : Script) (limit steps : Nat) : SearchMove → Extent
  | .answer last => .ofOption last
  | .enter next => next.run s limit steps
  | .extend first floor => (first.run s limit steps).andThen (afterFirst s limit steps floor)

@[simp] theorem run_zero (s : Script) (limit : Nat) (c : EndSearch) :
    c.run s limit 0 = .outOfSteps := by
  cases c <;> simp [run, Script.branchEnd, Script.loopEnd, Script.bodyEnd, Script.elseEnd,
    Script.elseBody]

theorem run_succ (s : Script) (limit steps : Nat) (c : EndSearch) :
    c.run s limit (steps + 1) = outcome s limit steps (c.move s limit) := by
  cases c with
  | branch i condition =>
      simp only [run, Script.branchEnd, move, outcome]
      rfl
  | loop i condition =>
      simp only [run, Script.loopEnd, move]
      cases s.conditionEnd limit i condition <;> rfl
  | body i text =>
      simp only [run, Script.bodyEnd, move]
      cases s.bodyStart limit i text with
      | none => rfl
      | some start =>
          dsimp only
          repeat' split
          all_goals rfl
  | chain i =>
      simp only [run, Script.elseEnd, move]
      cases afterEndElse (s.line i).code with
      | some rest => rfl
      | none =>
          cases s.nextCode (i + 1) limit with
          | none => rfl
          | some next =>
              dsimp only
              split <;> rfl
  | other i text =>
      simp only [run, Script.elseBody, move]
      split <;> rfl

/-- Moves stay between the line of the search and the limit; a floor is the line of the search. -/
def SearchMove.Inside (lo limit : Nat) : SearchMove → Prop
  | .answer last => ∀ found ∈ last, lo ≤ found ∧ found < limit
  | .enter next => lo ≤ next.line ∧ next.line < limit
  | .extend first floor => lo ≤ first.line ∧ first.line < limit ∧ ∀ i ∈ floor, i = lo

theorem move_inside (s : Script) (limit : Nat) (c : EndSearch) (inside : c.line < limit) :
    SearchMove.Inside c.line limit (c.move s limit) := by
  cases c with
  | branch i condition => exact ⟨Nat.le_refl i, inside, by simp⟩
  | loop i condition =>
      simp only [move, line] at inside ⊢
      split
      · rename_i next text found
        rcases Script.conditionEnd_body s limit i condition next text found with
          ⟨_, ⟨rfl, _⟩ | ⟨after, below, _⟩⟩
        · exact ⟨Nat.le_refl _, inside⟩
        · exact ⟨Nat.le_of_lt after, below⟩
      · simp [SearchMove.Inside]
  | body i text =>
      simp only [move, line] at inside ⊢
      split
      · simp [SearchMove.Inside]
      · rename_i next body found
        have bounds : i ≤ next ∧ next < limit := by
          rcases Script.bodyStart_line s limit i text next body found with
            ⟨rfl, _⟩ | ⟨_, after, below, _⟩ <;> omega
        split
        · intro last member
          have ends := Script.guardedEnd_bounds s limit next last bounds.2 member
          omega
        · split
          · intro last member
            have ends := Script.balancedEnd_bounds s limit next _ last bounds.2 member
            omega
          · split
            · exact bounds
            · split
              · exact bounds
              · intro last member
                cases member
                have low := Script.le_statementExtent_last s next body limit
                have high := Script.statementExtent_lt s next body limit bounds.2
                omega
  | chain i =>
      simp only [move, line] at inside ⊢
      split
      · exact ⟨Nat.le_refl i, inside, by simp⟩
      · split
        · intro last member
          cases member
          omega
        · rename_i next following
          obtain ⟨after, below, _⟩ := Script.nextCode_eq_some s (i + 1) limit next following
          split
          · exact ⟨by simp only [line]; omega, below, by simp⟩
          · intro last member
            cases member
            omega
  | other i text =>
      simp only [move, line] at inside ⊢
      split <;> exact ⟨Nat.le_refl i, inside⟩

theorem run_found_bounds (s : Script) (limit steps : Nat) (c : EndSearch) (last : Nat)
    (inside : c.line < limit) (found : c.run s limit steps = .found last) :
    c.line ≤ last ∧ last < limit := by
  induction steps generalizing c last with
  | zero => simp at found
  | succ steps ih =>
      have stays := move_inside s limit c inside
      rw [run_succ] at found
      cases first : c.move s limit with
      | answer answer =>
          rw [first] at found stays
          cases answer with
          | none => simp [outcome, Extent.ofOption] at found
          | some answer =>
              simp only [outcome, Extent.ofOption, Extent.found.injEq] at found
              exact stays last (by simp [found])
      | enter next =>
          rw [first] at found stays
          have ends := ih next last stays.2 found
          exact ⟨Nat.le_trans stays.1 ends.1, ends.2⟩
      | extend inner floor =>
          rw [first] at found stays
          obtain ⟨low, high, atFloor⟩ := stays
          simp only [outcome] at found
          cases ended : inner.run s limit steps with
          | absent => simp [ended, Extent.andThen] at found
          | outOfSteps => simp [ended, Extent.andThen] at found
          | found stop =>
              -- The inner search has its end; the chain goes on there, unless it has not moved at all.
              have bounds := ih inner stop high ended
              have onward : (chain stop).run s limit steps = .found last →
                  c.line ≤ last ∧ last < limit := by
                intro next
                have ends := ih (chain stop) last bounds.2 next
                simp only [line] at ends
                omega
              simp only [ended, Extent.andThen, afterFirst] at found
              split at found
              · rename_i i
                have here := atFloor i rfl
                split at found
                · cases found
                  omega
                · exact onward found
              · exact onward found

end EndSearch

namespace Script

/-- The search that a line opens by a condition of its own. -/
def opening (s : Script) (i : Nat) : Option EndSearch :=
  match (s.line i).opener with
  | some .branch => some (.branch i (afterLeading (s.line i).code))
  | some .loop => some (.loop i (afterLeading (s.line i).code))
  | _ => none

theorem opening_line (s : Script) (i : Nat) (c : EndSearch) (opens : s.opening i = some c) :
    c.line = i := by
  rw [opening] at opens
  split at opens <;> cases opens <;> rfl

theorem extentWithin_of_opening (s : Script) (limit steps i : Nat) (c : EndSearch)
    (opens : s.opening i = some c) : s.extentWithin limit steps i = c.run s limit steps := by
  rw [opening] at opens
  rw [extentWithin]
  split at opens <;> cases opens <;> rename_i kind <;> simp [kind, EndSearch.run]

theorem extentWithin_of_no_opening (s : Script) (limit steps i : Nat) (opens : s.opening i = none) :
    ∃ last, s.extentWithin limit steps i = .ofOption last ∧
      ∀ found ∈ last, i < limit → i ≤ found ∧ found < limit := by
  rw [extentWithin]
  rw [opening] at opens
  split
  · rename_i kind
    simp [kind] at opens
  · rename_i kind
    simp [kind] at opens
  · refine ⟨_, rfl, fun last found inside => ?_⟩
    have bounds := guardedEnd_bounds s limit i last inside found
    omega
  · exact ⟨_, rfl, fun last found inside => declarationEnd_bounds s limit i last inside found⟩
  · exact ⟨_, rfl, fun last found inside => statementEnd_bounds s limit i last inside found⟩
  · exact ⟨none, rfl, by simp⟩

/-- The end of the construct that a line opens lies between this line and the limit. -/
theorem extentWithin_bounds (s : Script) (limit steps i last : Nat) (inside : i < limit)
    (found : s.extentWithin limit steps i = .found last) : i ≤ last ∧ last < limit := by
  cases opens : s.opening i with
  | some c =>
      have line := opening_line s i c opens
      rw [extentWithin_of_opening s limit steps i c opens] at found
      have bounds := EndSearch.run_found_bounds s limit steps c last (by omega) found
      omega
  | none =>
      obtain ⟨answer, same, bounds⟩ := extentWithin_of_no_opening s limit steps i opens
      rw [same] at found
      cases answer with
      | none => simp [Extent.ofOption] at found
      | some answer =>
          simp only [Extent.ofOption, Extent.found.injEq] at found
          exact bounds last (by simp [found]) inside

end Script

end ScriptAtlas
