import Mathlib.Logic.Relation
import ScriptAtlas.Proofs.Extent

/-!
Searches for an end as a graph. A search starts other searches, on its own line with less text or on a
later line. It runs out of the steps that a script provides only if it comes to the `ELSE` chain of a
line from which it comes back to the same chain, and then no number of steps is enough.
-/

namespace ScriptAtlas

open Word Relation

namespace EndSearch

/-! ### The searches that a search starts -/

inductive Starts (s : Script) (limit : Nat) : EndSearch → EndSearch → Prop where
  | enter {c next : EndSearch} (moves : c.move s limit = .enter next) : Starts s limit c next
  | first {c first : EndSearch} {floor : Option Nat} (moves : c.move s limit = .extend first floor) :
      Starts s limit c first
  | onward {c first : EndSearch} {floor : Option Nat} {steps last : Nat}
      (moves : c.move s limit = .extend first floor)
      (ended : first.run s limit steps = .found last) (above : ∀ i ∈ floor, i < last) :
      Starts s limit c (chain last)

/-- More steps do not change what a search that ended comes to. -/
theorem run_mono (s : Script) (limit steps more : Nat) (c : EndSearch) (enough : steps ≤ more)
    (ended : c.run s limit steps ≠ .outOfSteps) : c.run s limit more = c.run s limit steps := by
  induction steps generalizing more c with
  | zero => simp at ended
  | succ steps ih =>
      obtain ⟨more, rfl⟩ : ∃ k, more = k + 1 := ⟨more - 1, by omega⟩
      have fewer : steps ≤ more := by omega
      rw [run_succ] at ended ⊢
      rw [run_succ]
      cases move : c.move s limit with
      | answer last => rfl
      | enter next =>
          rw [move] at ended
          exact ih more next fewer ended
      | extend first floor =>
          rw [move] at ended
          simp only [outcome] at ended ⊢
          have firstEnded : first.run s limit steps ≠ .outOfSteps := by
            intro out
            simp [out, Extent.andThen] at ended
          rw [ih more first fewer firstEnded]
          cases found : first.run s limit steps with
          | absent => rfl
          | outOfSteps => rfl
          | found last =>
              simp only [found, Extent.andThen, afterFirst] at ended ⊢
              repeat' split
              · rfl
              · rename_i onward
                simp only [onward, if_false] at ended
                exact ih more (chain last) fewer ended
              · exact ih more (chain last) fewer ended

theorem run_out_of_fewer (s : Script) (limit steps more : Nat) (c : EndSearch) (enough : steps ≤ more)
    (out : c.run s limit more = .outOfSteps) : c.run s limit steps = .outOfSteps := by
  apply Classical.byContradiction
  intro ended
  rw [run_mono s limit steps more c enough ended] at out
  exact ended out

theorem Starts.out {s : Script} {limit steps : Nat} {c next : EndSearch} (starts : Starts s limit c next)
    (out : next.run s limit steps = .outOfSteps) : c.run s limit (steps + 1) = .outOfSteps := by
  rw [run_succ]
  cases starts with
  | enter moves =>
      rw [moves]
      exact out
  | first moves =>
      rw [moves]
      simp [outcome, out, Extent.andThen]
  | @onward first floor enough last moves ended above =>
      rw [moves]
      simp only [outcome]
      by_cases short : first.run s limit steps = .outOfSteps
      · simp [short, Extent.andThen]
      · have same : first.run s limit steps = .found last := by
          rcases Nat.le_total steps enough with fewer | fewer
          · rw [← run_mono s limit steps enough first fewer short, ended]
          · rw [run_mono s limit enough steps first fewer (by simp [ended]), ended]
        simp only [same, Extent.andThen, afterFirst]
        split
        · rename_i i
          have later := above i rfl
          rw [if_neg (by omega)]
          exact out
        · exact out

/-- A search that no number of steps lets end. -/
def Endless (s : Script) (limit : Nat) (c : EndSearch) : Prop :=
  ∀ steps, c.run s limit steps = .outOfSteps

theorem Endless.of_starts {s : Script} {limit : Nat} {c next : EndSearch}
    (path : ReflTransGen (Starts s limit) c next) (endless : Endless s limit next) :
    Endless s limit c := by
  induction path using ReflTransGen.head_induction_on with
  | refl => exact endless
  | head starts _ ih =>
      intro steps
      exact run_out_of_fewer s limit steps (steps + 1) _ (by omega) (starts.out (ih steps))

theorem Endless.of_cycle {s : Script} {limit : Nat} {c : EndSearch}
    (cycle : TransGen (Starts s limit) c c) : Endless s limit c := by
  have out : ∀ steps next, TransGen (Starts s limit) c next →
      next.run s limit steps = .outOfSteps → c.run s limit (steps + 1) = .outOfSteps := by
    intro steps next path
    induction path with
    | single starts => exact starts.out
    | tail _ starts ih =>
        intro last
        exact ih (run_out_of_fewer s limit steps (steps + 1) _ (by omega) (starts.out last))
  intro steps
  induction steps with
  | zero => exact run_zero s limit c
  | succ steps ih => exact out steps c cycle ih

theorem Starts.line {s : Script} {limit : Nat} {c next : EndSearch} (starts : Starts s limit c next)
    (inside : c.line < limit) : c.line ≤ next.line ∧ next.line < limit := by
  have stays := move_inside s limit c inside
  cases starts with
  | enter moves =>
      rw [moves] at stays
      exact stays
  | first moves =>
      rw [moves] at stays
      exact ⟨stays.1, stays.2.1⟩
  | onward moves ended above =>
      rw [moves] at stays
      have bounds := run_found_bounds s limit _ _ _ stays.2.1 ended
      exact ⟨Nat.le_trans stays.1 bounds.1, bounds.2⟩

theorem starts_line {s : Script} {limit : Nat} {c next : EndSearch}
    (path : ReflTransGen (Starts s limit) c next) (inside : c.line < limit) :
    c.line ≤ next.line ∧ next.line < limit := by
  induction path with
  | refl => exact ⟨Nat.le_refl _, inside⟩
  | tail _ starts ih =>
      have bounds := starts.line ih.2
      exact ⟨Nat.le_trans ih.1 bounds.1, bounds.2⟩

def CanStart (s : Script) (limit : Nat) (next : EndSearch) : EndSearch → Prop
  | branch i condition =>
    next = loop i condition ∨
      ∃ steps last, s.loopEnd limit steps i condition = .found last ∧ next = chain last
  | loop i condition => ∃ line text, s.conditionEnd limit i condition = some (line, text) ∧
      next = body line text
  | body i text => ∃ line start, s.bodyStart limit i text = some (line, start) ∧
      (leadsWith start ["IF"] = true ∧ next = branch line (afterLeading start) ∨
        leadsWith start ["WHILE"] = true ∧ next = loop line (afterLeading start))
  | chain i =>
    (∃ rest, afterEndElse (s.line i).code = some rest ∧
      (next = other i rest ∨ ∃ last, i < last ∧ next = chain last)) ∨
    ∃ line, i < line ∧ (next = other line (afterLeading (s.line line).code) ∨
      ∃ last, line ≤ last ∧ next = chain last)
  | other i text =>
    leadsWith text ["IF"] = true ∧ next = loop i (afterLeading text) ∨
      leadsWith text ["IF"] = false ∧ next = body i text

theorem canStart_of_enter (s : Script) (limit : Nat) (c next : EndSearch)
    (moves : c.move s limit = .enter next) : CanStart s limit next c := by
  cases c with
  | branch i condition => cases moves
  | loop i condition =>
      simp only [move] at moves
      split at moves
      · rename_i line text found
        cases moves
        exact ⟨line, text, found, rfl⟩
      · cases moves
  | body i text =>
      simp only [move] at moves
      split at moves
      · cases moves
      · rename_i line start found
        refine ⟨line, start, found, ?_⟩
        split at moves
        · cases moves
        · split at moves
          · cases moves
          · split at moves
            · rename_i leads
              cases moves
              exact .inl ⟨leads, rfl⟩
            · split at moves
              · rename_i leads
                cases moves
                exact .inr ⟨leads, rfl⟩
              · cases moves
  | chain i =>
      simp only [move] at moves
      split at moves
      · cases moves
      · split at moves
        · cases moves
        · split at moves <;> cases moves
  | other i text =>
      simp only [move] at moves
      split at moves
      · rename_i leads
        cases moves
        exact .inl ⟨leads, rfl⟩
      · rename_i leads
        cases moves
        exact .inr ⟨by simpa using leads, rfl⟩

theorem move_extend (s : Script) (limit : Nat) (c first : EndSearch) (floor : Option Nat)
    (moves : c.move s limit = .extend first floor) :
    (∃ i condition, c = branch i condition ∧ first = loop i condition) ∨
    (∃ i rest, c = chain i ∧ afterEndElse (s.line i).code = some rest ∧ first = other i rest ∧
      floor = some i) ∨
    ∃ i line, c = chain i ∧ i < line ∧ line < limit ∧
      first = other line (afterLeading (s.line line).code) := by
  cases c with
  | branch i condition =>
      cases moves
      exact .inl ⟨i, condition, rfl, rfl⟩
  | loop i condition =>
      simp only [move] at moves
      split at moves <;> cases moves
  | body i text =>
      simp only [move] at moves
      repeat' split at moves
      all_goals cases moves
  | chain i =>
      simp only [move] at moves
      split at moves
      · rename_i rest tail
        cases moves
        exact .inr (.inl ⟨i, rest, rfl, tail, rfl, rfl⟩)
      · split at moves
        · cases moves
        · rename_i line following
          obtain ⟨after, below, _⟩ := Script.nextCode_eq_some s (i + 1) limit line following
          split at moves
          · cases moves
            exact .inr (.inr ⟨i, line, rfl, by omega, below, rfl⟩)
          · cases moves
  | other i text =>
      simp only [move] at moves
      split at moves <;> cases moves

theorem Starts.canStart {s : Script} {limit : Nat} {c next : EndSearch}
    (starts : Starts s limit c next) : CanStart s limit next c := by
  cases starts with
  | enter moves => exact canStart_of_enter s limit c next moves
  | first moves =>
      rcases move_extend s limit c next _ moves with
        ⟨i, condition, rfl, rfl⟩ | ⟨i, rest, rfl, tail, rfl, _⟩ | ⟨i, line, rfl, after, _, rfl⟩
      · exact .inl rfl
      · exact .inl ⟨rest, tail, .inl rfl⟩
      · exact .inr ⟨line, after, .inl rfl⟩
  | @onward first floor steps last moves ended above =>
      rcases move_extend s limit c first floor moves with
        ⟨i, condition, rfl, rfl⟩ | ⟨i, rest, rfl, tail, rfl, rfl⟩ | ⟨i, line, rfl, after, below, rfl⟩
      · exact .inr ⟨steps, last, ended, rfl⟩
      · exact .inl ⟨rest, tail, .inr ⟨last, above i rfl, rfl⟩⟩
      · have bounds := run_found_bounds s limit steps (other line _) last below ended
        exact .inr ⟨line, after, .inr ⟨last, bounds.1, rfl⟩⟩

/-- A search that runs out of steps has started one that does. -/
theorem starts_of_out (s : Script) (limit steps : Nat) (c : EndSearch)
    (out : c.run s limit (steps + 1) = .outOfSteps) :
    ∃ next, Starts s limit c next ∧ next.run s limit steps = .outOfSteps := by
  rw [run_succ] at out
  cases moves : c.move s limit with
  | answer last =>
      rw [moves] at out
      cases last <;> cases out
  | enter next =>
      rw [moves] at out
      exact ⟨next, .enter moves, out⟩
  | extend first floor =>
      rw [moves] at out
      simp only [outcome] at out
      cases ended : first.run s limit steps with
      | outOfSteps => exact ⟨first, .first moves, ended⟩
      | absent =>
          rw [ended] at out
          cases out
      | found last =>
          simp only [ended, Extent.andThen, afterFirst] at out
          refine ⟨chain last, .onward moves ended ?_, ?_⟩
          · rintro i rfl
            apply Nat.lt_of_not_le
            intro low
            simp [low] at out
          · split at out
            · split at out
              · cases out
              · exact out
            · exact out

end EndSearch

/-! ### Enough steps -/

namespace Script

def room (s : Script) (i : Nat) : Nat :=
  ((s.toList.drop i).map fun l => 4 * l.code.length + 8).sum

theorem room_eq (s : Script) (i : Nat) (inside : i < s.size) :
    s.room i = 4 * (s.line i).code.length + 8 + s.room (i + 1) := by
  rw [room, List.drop_eq_getElem_cons (by simpa using inside), List.map_cons, List.sum_cons,
    line_eq_getElem s i inside, room]
  simp

theorem room_anti (s : Script) (i j : Nat) (ordered : i ≤ j) : s.room j ≤ s.room i := by
  induction ordered with
  | refl => exact Nat.le_refl _
  | @step j _ ih =>
      rw [Nat.succ_eq_add_one]
      by_cases inside : j < s.size
      · have here := room_eq s j inside
        omega
      · have beyond : s.room (j + 1) = 0 := by
          rw [room, List.drop_eq_nil_of_le (by simp; omega)]
          rfl
        omega

theorem steps_eq (s : Script) :
    s.steps = 8 * ((s.toList.map fun l => l.code.length + 4).sum + 8) := by
  have sum : ∀ (lines : List Line) (n : Nat), lines.foldl (fun n l => n + l.code.length + 4) n =
      (lines.map fun l => l.code.length + 4).sum + n := by
    intro lines
    induction lines with
    | nil => simp
    | cons l rest ih =>
        intro n
        rw [List.foldl_cons, ih, List.map_cons, List.sum_cons]
        omega
  rw [steps, ← Array.foldl_toList, sum]

theorem room_le_steps (s : Script) (i : Nat) : s.room i ≤ s.steps := by
  have most := room_anti s 0 i (Nat.zero_le i)
  have whole : s.room 0 = 4 * (s.toList.map fun l => l.code.length + 4).sum -
      8 * s.toList.length := by
    have sum : ∀ lines : List Line, (lines.map fun l => 4 * l.code.length + 8).sum + 8 * lines.length =
        4 * (lines.map fun l => l.code.length + 4).sum := by
      intro lines
      induction lines with
      | nil => rfl
      | cons l rest ih =>
          simp only [List.map_cons, List.sum_cons, List.length_cons]
          omega
    have here := sum s.toList
    rw [room, List.drop_zero]
    omega
  rw [steps_eq]
  omega

end Script

namespace EndSearch

/-- The steps left after the text of a search on line `i`. As long as the search has not come to the
`ELSE` chain of this line, it may still come to it once. -/
def spare (s : Script) (fresh : Bool) (i : Nat) : Nat :=
  s.room (i + 1) + if fresh then 2 * (s.line i).code.length + 4 else 0

def allowance (s : Script) (fresh : Bool) : EndSearch → Nat
  | branch i condition => spare s fresh i + 2 * condition.length + 3
  | loop i condition => spare s fresh i + 2 * condition.length + 2
  | body i text => spare s fresh i + 2 * text.length + 1
  | chain i => spare s true i
  | other i text => spare s fresh i + 2 * text.length + 3

def text : EndSearch → Text
  | branch _ text | loop _ text | body _ text | other _ text => text
  | chain _ => []

theorem allowance_lt_room (s : Script) (c : EndSearch) (inside : c.line < s.size)
    (short : c.text.length ≤ (s.line c.line).code.length) : c.allowance s true < s.room c.line := by
  have here := Script.room_eq s c.line inside
  cases c <;> simp only [allowance, spare, text, line, if_true] at short here ⊢ <;> omega

theorem Starts.later_text {s : Script} {limit : Nat} {c next : EndSearch}
    (starts : Starts s limit c next) (later : c.line < next.line) :
    next.text.length ≤ (s.line next.line).code.length := by
  have shorter := fun code => afterLeading_length code
  have can := starts.canStart
  cases c with
  | branch i condition =>
      rcases can with rfl | ⟨_, last, _, rfl⟩
      · exact absurd later (Nat.lt_irrefl _)
      · simp [text]
  | loop i condition =>
      obtain ⟨line, start, found, rfl⟩ := can
      rcases Script.conditionEnd_body s limit i condition line start found with
        ⟨_, ⟨rfl, _⟩ | ⟨_, _, short⟩⟩
      · exact absurd later (Nat.lt_irrefl _)
      · exact short
  | body i _ =>
      obtain ⟨line, start, found, started⟩ := can
      rcases Script.bodyStart_line s limit i _ line start found with ⟨rfl, _⟩ | ⟨_, _, _, rfl⟩
      · rcases started with ⟨_, rfl⟩ | ⟨_, rfl⟩ <;> exact absurd later (Nat.lt_irrefl _)
      · have short := shorter (s.line line).code
        rcases started with ⟨_, rfl⟩ | ⟨_, rfl⟩ <;> simp only [text, EndSearch.line] <;> omega
  | chain i =>
      rcases can with ⟨rest, _, rfl | ⟨last, _, rfl⟩⟩ | ⟨line, _, rfl | ⟨last, _, rfl⟩⟩
      · exact absurd later (Nat.lt_irrefl _)
      · simp [text]
      · have short := shorter (s.line line).code
        simp only [text, EndSearch.line]
        omega
      · simp [text]
  | other i _ => rcases can with ⟨_, rfl⟩ | ⟨_, rfl⟩ <;> exact absurd later (Nat.lt_irrefl _)

theorem Starts.later_allowance {s : Script} {c next : EndSearch} (starts : Starts s s.size c next)
    (inside : c.line < s.size) (later : c.line < next.line) (fresh : Bool) :
    next.allowance s true < c.allowance s fresh := by
  have fits := allowance_lt_room s next (starts.line inside).2 (starts.later_text later)
  have below := Script.room_anti s (c.line + 1) next.line later
  have least : s.room (c.line + 1) ≤ c.allowance s fresh := by
    cases c <;> simp only [allowance, spare, EndSearch.line] <;> omega
  omega

def CanStartHere (s : Script) (limit : Nat) (next : EndSearch) : EndSearch → Prop
  | branch i condition =>
    next = loop i condition ∨
      next = chain i ∧ ∃ steps, s.loopEnd limit steps i condition = .found i
  | loop i condition => ∃ text depth, splitCondition condition 0 = .body text depth ∧ next = body i text
  | body i text =>
    leadsWith text ["IF"] = true ∧ next = branch i (afterLeading text) ∨
      leadsWith text ["WHILE"] = true ∧ next = loop i (afterLeading text)
  | chain i => ∃ rest, afterEndElse (s.line i).code = some rest ∧ next = other i rest
  | other i text =>
    leadsWith text ["IF"] = true ∧ next = loop i (afterLeading text) ∨
      leadsWith text ["IF"] = false ∧ next = body i text

theorem Starts.canStartHere {s : Script} {limit : Nat} {c next : EndSearch}
    (starts : Starts s limit c next) (same : next.line = c.line) : CanStartHere s limit next c := by
  have can := starts.canStart
  cases c with
  | branch i condition =>
      rcases can with rfl | ⟨steps, last, ended, rfl⟩
      · exact .inl rfl
      · obtain rfl : last = i := same
        exact .inr ⟨rfl, steps, ended⟩
  | loop i condition =>
      obtain ⟨line, start, found, rfl⟩ := can
      obtain rfl : line = i := same
      rcases Script.conditionEnd_body s limit line condition line start found with
        ⟨_, ⟨_, depth, here⟩ | ⟨later, _⟩⟩
      · exact ⟨start, depth, here, rfl⟩
      · exact absurd later (Nat.lt_irrefl _)
  | body i text =>
      obtain ⟨line, start, found, started⟩ := can
      obtain rfl : line = i := by rcases started with ⟨_, rfl⟩ | ⟨_, rfl⟩ <;> exact same
      rcases Script.bodyStart_line s limit line text line start found with ⟨_, rfl, _⟩ | ⟨_, later, _⟩
      · exact started
      · exact absurd later (Nat.lt_irrefl _)
  | chain i =>
      rcases can with ⟨rest, tail, rfl | ⟨last, after, rfl⟩⟩ | ⟨line, after, rfl | ⟨last, later, rfl⟩⟩
      · exact ⟨rest, tail, rfl⟩
      all_goals simp only [EndSearch.line] at same; omega
  | other i text => exact can

theorem afterLeading_shorter (text word : Text) (leads : leadsWith text [word] = true) :
    (afterLeading text).length + word.length ≤ text.length := by
  have short := afterLeading_length text
  rwa [(leadsWith_singleton text word).mp leads] at short

/-- What a search starts has fewer steps to take, unless it is a chain that comes back to itself. -/
theorem Starts.allowance_lt {s : Script} {c next : EndSearch} (starts : Starts s s.size c next)
    (inside : c.line < s.size) (fresh : Bool)
    (been : fresh = false → ReflTransGen (Starts s s.size) (chain c.line) c) :
    (∃ j, next = chain j ∧ TransGen (Starts s s.size) (chain j) (chain j)) ∨
      ∃ stillFresh, (stillFresh = false → ReflTransGen (Starts s s.size) (chain next.line) next) ∧
        next.allowance s stillFresh < c.allowance s fresh := by
  rcases Nat.lt_or_eq_of_le (starts.line inside).1 with later | same
  · exact .inr ⟨true, by simp, starts.later_allowance inside later fresh⟩
  have been' : fresh = false → ReflTransGen (Starts s s.size) (chain next.line) next :=
    fun past => same ▸ (been past).tail starts
  have here := starts.canStartHere same.symm
  cases c with
  | branch i condition =>
      rcases here with rfl | ⟨rfl, steps, ended⟩
      · exact .inr ⟨fresh, been', by simp only [allowance]; omega⟩
      · cases fresh with
        | true => exact .inr ⟨true, by simp, by simp only [allowance]; omega⟩
        -- The chain of this line led here, so the search has come back to it.
        | false => exact .inl ⟨i, rfl, .tail' (been rfl) starts⟩
  | loop i condition =>
      obtain ⟨text, depth, reaches, rfl⟩ := here
      have short := splitCondition_body_length condition text 0 depth reaches
      exact .inr ⟨fresh, been', by simp only [allowance]; omega⟩
  | body i text =>
      refine .inr ⟨fresh, been', ?_⟩
      rcases here with ⟨leads, rfl⟩ | ⟨leads, rfl⟩
      · have short := afterLeading_shorter text "IF" leads
        have two : (Text.ofString "IF").length = 2 := by decide
        simp only [allowance]
        omega
      · have short := afterLeading_shorter text "WHILE" leads
        have five : (Text.ofString "WHILE").length = 5 := by decide
        simp only [allowance]
        omega
  | chain i =>
      obtain ⟨rest, tail, rfl⟩ := here
      have short := afterEndElse_length (s.line i).code rest tail
      refine .inr ⟨false, fun _ => ReflTransGen.single starts, ?_⟩
      simp only [allowance, spare, if_true, Bool.false_eq_true, if_false]
      omega
  | other i text =>
      refine .inr ⟨fresh, been', ?_⟩
      have short := afterLeading_length text
      rcases here with ⟨leads, rfl⟩ | ⟨leads, rfl⟩ <;> simp only [allowance] <;> omega

/-- A search that runs out of its steps comes to a chain that comes back to itself. -/
theorem cycle_of_out (s : Script) (steps : Nat) (c : EndSearch) (fresh : Bool) (inside : c.line < s.size)
    (been : fresh = false → ReflTransGen (Starts s s.size) (chain c.line) c)
    (enough : c.allowance s fresh ≤ steps) (out : c.run s s.size steps = .outOfSteps) :
    ∃ j, ReflTransGen (Starts s s.size) c (chain j) ∧
      TransGen (Starts s s.size) (chain j) (chain j) := by
  induction steps generalizing c fresh with
  | zero =>
      exfalso
      cases c <;> simp [allowance, spare] at enough
  | succ steps ih =>
      -- The search that ran out next has a smaller allowance, so the steps left are still enough for it.
      obtain ⟨next, starts, nextOut⟩ := starts_of_out s s.size steps c out
      rcases starts.allowance_lt inside fresh been with ⟨j, rfl, cycle⟩ | ⟨stillFresh, been', fewer⟩
      · exact ⟨j, .single starts, cycle⟩
      · obtain ⟨j, path, cycle⟩ :=
          ih next stillFresh (starts.line inside).2 been' (by omega) nextOut
        exact ⟨j, path.head starts, cycle⟩

end EndSearch

end ScriptAtlas
