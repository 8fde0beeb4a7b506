import ScriptAtlas.Block.Plan
import ScriptAtlas.Proofs.Front
import ScriptAtlas.Proofs.SearchGraph

/-!
Which searches for an end go on for ever. The `ELSE` chain of a line comes back to itself exactly when
the line holds an `END ELSE` and a branch nested in the body of this `ELSE` ends on the line. A script
has a plan when no search of its sweep comes to such a line.
-/

namespace ScriptAtlas

open Word Relation

/-! ### Lines that a search comes back to -/

namespace Word

/-- Text that holds a branch with the given condition, at its beginning or as a body on the same line.
-/
inductive HoldsBranch : Text → Text → Prop where
  | here {text : Text} (leads : leadsWith text ["IF"] = true) : HoldsBranch text (afterLeading text)
  | inside {text body condition : Text} {depth : Int} (leads : leadsWith text ["IF", "WHILE"] = true)
      (reaches : splitCondition (afterLeading text) 0 = .body body depth)
      (holds : HoldsBranch body condition) : HoldsBranch text condition

/-- The body of an `ELSE` or `ELSE IF` whose text follows the `ELSE`, if it stands on the same line. -/
def elseText (rest : Text) : Option Text :=
  if leadsWith rest ["IF"] then
    match splitCondition (afterLeading rest) 0 with
    | .body text _ => some text
    | .ongoing _ => none
  else some rest

end Word

namespace Script

def HoldsShortBranch (s : Script) (limit i : Nat) (text : Text) : Prop :=
  ∃ condition, HoldsBranch text condition ∧ ∃ steps, s.loopEnd limit steps i condition = .found i

/-- An `END ELSE` that is followed, in the body of the `ELSE` and on the same line, by a branch that
ends on this line. The `ELSE` of the line is then taken for one of this branch. -/
def Reenters (s : Script) (limit i : Nat) : Prop :=
  ∃ rest text, afterEndElse (s.line i).code = some rest ∧ elseText rest = some text ∧
    s.HoldsShortBranch limit i text

end Script

namespace EndSearch

/-- What the text of a search must hold for the search to come to the chain of its line. -/
def ComesToChain (s : Script) (limit : Nat) : EndSearch → Prop
  | branch i condition =>
    (∃ steps, s.loopEnd limit steps i condition = .found i) ∨
      ∃ text depth, splitCondition condition 0 = .body text depth ∧ s.HoldsShortBranch limit i text
  | loop i condition =>
    ∃ text depth, splitCondition condition 0 = .body text depth ∧ s.HoldsShortBranch limit i text
  | body i text => s.HoldsShortBranch limit i text
  | chain _ => True
  | other i rest => ∃ text, elseText rest = some text ∧ s.HoldsShortBranch limit i text

theorem comesToChain_of_path (s : Script) (limit j : Nat) (c : EndSearch) (inside : j < limit)
    (path : ReflTransGen (Starts s limit) c (chain j)) (here : c.line = j) :
    ComesToChain s limit c := by
  induction path using ReflTransGen.head_induction_on with
  | refl => trivial
  | @head c next starts rest ih =>
      obtain ⟨low, below⟩ := starts.line (by omega : c.line < limit)
      have high : next.line ≤ j := (starts_line rest below).1
      have same : next.line = c.line := by omega
      have onward := ih (by omega)
      have can := starts.canStartHere same
      cases c with
      | branch i condition =>
          rcases can with rfl | ⟨_, ended⟩
          · exact .inr onward
          · exact .inl ended
      | loop i condition =>
          obtain ⟨text, depth, reaches, rfl⟩ := can
          exact ⟨text, depth, reaches, onward⟩
      | body i text =>
          rcases can with ⟨leads, rfl⟩ | ⟨leads, rfl⟩
          · rcases onward with ended | ⟨body, depth, reaches, condition, holds, ended⟩
            · exact ⟨_, .here leads, ended⟩
            · have either := (leadsWith_control text).mpr (.inl leads)
              exact ⟨condition, .inside either reaches holds, ended⟩
          · obtain ⟨body, depth, reaches, condition, holds, ended⟩ := onward
            have either := (leadsWith_control text).mpr (.inr leads)
            exact ⟨condition, .inside either reaches holds, ended⟩
      | chain i => trivial
      | other i text =>
          rcases can with ⟨leads, rfl⟩ | ⟨leads, rfl⟩
          · obtain ⟨body, depth, reaches, holds⟩ := onward
            exact ⟨body, by simp [elseText, leads, reaches], holds⟩
          · exact ⟨text, by simp [elseText, leads], onward⟩

/-- A chain that comes back to itself is that of a line with a nested branch after `END ELSE`. -/
theorem reenters_of_cycle (s : Script) (limit j : Nat) (inside : j < limit)
    (cycle : TransGen (Starts s limit) (chain j) (chain j)) : s.Reenters limit j := by
  obtain ⟨next, starts, path⟩ := TransGen.head'_iff.mp cycle
  have low : j ≤ next.line := (starts.line inside).1
  have high : next.line ≤ j := (starts_line path (starts.line inside).2).1
  have same : next.line = j := by omega
  obtain ⟨rest, tail, rfl⟩ := starts.canStartHere same
  obtain ⟨text, elseBody, holds⟩ := comesToChain_of_path s limit j _ inside path same
  exact ⟨rest, text, tail, elseBody, holds⟩

theorem leadsWith_control_not_begins (text : Text) (leads : leadsWith text ["IF", "WHILE"] = true) :
    beginsTry text = false ∧ beginsBlock text = false := by
  have other : leading text ≠ "BEGIN" := by
    rcases (leadsWith_control text).mp leads with word | word <;>
      rw [(leadsWith_singleton text _).mp word] <;> decide
  refine ⟨Bool.eq_false_iff.mpr fun begins => other (beginsTry_word text begins).1, ?_⟩
  simp [beginsBlock, other]

theorem starts_body (s : Script) (limit i : Nat) (text : Text) :
    (leadsWith text ["IF"] = true → Starts s limit (body i text) (branch i (afterLeading text))) ∧
    (leadsWith text ["WHILE"] = true → Starts s limit (body i text) (loop i (afterLeading text))) := by
  have start : ∀ word : Text, word ≠ [] → leadsWith text [word] = true →
      s.bodyStart limit i text = some (i, text) := by
    intro word nonempty leads
    have textNonempty : text ≠ [] := by
      rintro rfl
      exact nonempty ((leadsWith_singleton [] word).mp leads).symm
    simp [Script.bodyStart, textNonempty]
  constructor
  · intro leads
    obtain ⟨noTry, noBlock⟩ :=
      leadsWith_control_not_begins text ((leadsWith_control text).mpr (.inl leads))
    exact .enter (by simp [move, start "IF" (by decide) leads, noTry, noBlock, leads])
  · intro leads
    obtain ⟨noTry, noBlock⟩ :=
      leadsWith_control_not_begins text ((leadsWith_control text).mpr (.inr leads))
    have noBranch : leadsWith text ["IF"] = false := by
      rw [leadsWith_singleton] at leads
      simp only [leadsWith, leads]
      decide
    exact .enter (by simp [move, start "WHILE" (by decide) leads, noTry, noBlock, noBranch, leads])

theorem starts_loop (s : Script) (limit i : Nat) (condition text : Text) (depth : Int)
    (inside : i < limit) (reaches : splitCondition condition 0 = .body text depth) :
    Starts s limit (loop i condition) (body i text) :=
  .enter (by simp [move, Script.conditionEnd_of_body s limit i condition text depth inside reaches])

theorem path_of_holdsBranch (s : Script) (limit i : Nat) (text condition : Text) (inside : i < limit)
    (holds : HoldsBranch text condition) :
    ReflTransGen (Starts s limit) (body i text) (branch i condition) := by
  induction holds with
  | here leads => exact .single ((starts_body s limit i _).1 leads)
  | @inside text inner condition depth leads reaches holds ih =>
      have fromLoop : ReflTransGen (Starts s limit) (loop i (afterLeading text)) (branch i condition) :=
        ih.head (starts_loop s limit i _ inner depth inside reaches)
      rcases (leadsWith_control text).mp leads with leads | leads
      · exact (fromLoop.head (.first rfl)).head ((starts_body s limit i text).1 leads)
      · exact fromLoop.head ((starts_body s limit i text).2 leads)

theorem cycle_of_reenters (s : Script) (limit j : Nat) (inside : j < limit)
    (reenters : s.Reenters limit j) : TransGen (Starts s limit) (chain j) (chain j) := by
  obtain ⟨rest, text, tail, elseBody, condition, holds, steps, ended⟩ := reenters
  have intoElse : Starts s limit (chain j) (other j rest) := .first (by simp [move, tail]; rfl)
  have intoBody : ReflTransGen (Starts s limit) (other j rest) (body j text) := by
    rw [elseText] at elseBody
    split at elseBody
    · rename_i leads
      split at elseBody
      · rename_i found depth reaches
        cases elseBody
        have intoLoop : Starts s limit (other j rest) (loop j (afterLeading rest)) :=
          .enter (by simp [move, leads])
        exact .head intoLoop (.single (starts_loop s limit j _ text depth inside reaches))
      · cases elseBody
    · rename_i leads
      cases elseBody
      exact .single (.enter (by simp [move, leads]))
  have back : Starts s limit (branch j condition) (chain j) := .onward rfl ended (by simp)
  have intoBranch := intoBody.trans (path_of_holdsBranch s limit j text condition inside holds)
  exact (TransGen.single intoElse).trans_left (intoBranch.tail back)

end EndSearch

/-! ### Scripts without a plan -/

namespace Script

open EndSearch

/-- Line `i` opens a branch or loop whose search comes to a line with an `ELSE` that it re-enters. -/
def NeverEnds (s : Script) (i : Nat) : Prop :=
  ∃ c j, s.opening i = some c ∧ ReflTransGen (Starts s s.size) c (chain j) ∧ s.Reenters s.size j

theorem opening_inside (s : Script) (i : Nat) (c : EndSearch) (opens : s.opening i = some c) :
    i < s.size ∧ c.text.length ≤ (s.line i).code.length := by
  have short := afterLeading_length (s.line i).code
  have inside : (s.line i).opener ≠ none → i < s.size := by
    intro opener
    apply Nat.lt_of_not_le
    intro beyond
    rw [line_of_size_le s i beyond] at opener
    exact opener rfl
  rw [opening] at opens
  split at opens
  · rename_i kind
    cases opens
    exact ⟨inside (by simp [kind]), by simp only [text]; omega⟩
  · rename_i kind
    cases opens
    exact ⟨inside (by simp [kind]), by simp only [text]; omega⟩
  · cases opens

theorem extentWithin_of_neverEnds (s : Script) (i steps : Nat) (never : s.NeverEnds i) :
    s.extentWithin s.size steps i = .outOfSteps := by
  obtain ⟨c, j, opens, path, reenters⟩ := never
  have here := opening_line s i c opens
  have inside := (opening_inside s i c opens).1
  have below := (starts_line path (by omega)).2
  rw [extentWithin_of_opening s s.size steps i c opens]
  exact Endless.of_starts path (.of_cycle (cycle_of_reenters s s.size j below reenters)) steps

theorem neverEnds_of_out (s : Script) (i steps : Nat) (enough : s.steps ≤ steps)
    (out : s.extentWithin s.size steps i = .outOfSteps) : s.NeverEnds i := by
  cases opens : s.opening i with
  | none =>
      obtain ⟨last, same, _⟩ := extentWithin_of_no_opening s s.size steps i opens
      rw [same] at out
      cases last <;> cases out
  | some c =>
      have here := opening_line s i c opens
      obtain ⟨inside, short⟩ := opening_inside s i c opens
      subst here
      rw [extentWithin_of_opening s s.size steps c.line c opens] at out
      have fits := allowance_lt_room s c inside short
      have most := room_le_steps s c.line
      obtain ⟨j, path, cycle⟩ := cycle_of_out s steps c true (by omega) (by simp) (by omega) out
      have below := (starts_line path (by omega)).2
      exact ⟨c, j, opens, path, reenters_of_cycle s s.size j below cycle⟩

theorem extentWithin_mono (s : Script) (limit steps more i : Nat) (enough : steps ≤ more)
    (ended : s.extentWithin limit steps i ≠ .outOfSteps) :
    s.extentWithin limit more i = s.extentWithin limit steps i := by
  cases opens : s.opening i with
  | none =>
      rw [extentWithin, extentWithin]
      rw [opening] at opens
      split <;> simp_all
  | some c =>
      rw [extentWithin_of_opening s limit steps i c opens] at ended ⊢
      rw [extentWithin_of_opening s limit more i c opens]
      exact run_mono s limit steps more c enough ended

theorem sweep_mono (s : Script) (steps more count pending i : Nat) (enough : steps ≤ more)
    (ended : ∀ k ∈ s.searched steps count i, s.extentWithin s.size steps k ≠ .outOfSteps) :
    s.sweep more count pending i = s.sweep steps count pending i := by
  induction count generalizing pending i with
  | zero => rfl
  | succ count ih =>
      rw [searched] at ended
      rw [sweep, sweep]
      split
      · rfl
      · rename_i below
        rw [if_neg below] at ended
        have same : s.openedBlock more i = s.openedBlock steps i := by
          have here : s.extentWithin s.size steps i ≠ .outOfSteps := by
            apply ended
            split <;> exact List.mem_cons_self
          rw [openedBlock, openedBlock, extentWithin_mono s s.size steps more i enough here]
        rw [same]
        split
        · rename_i none
          rw [none] at ended
          exact ih pending (i + 1) fun k member => ended k (List.mem_cons_of_mem i member)
        · rename_i kind last opened
          rw [opened] at ended
          rw [ih (last + 1) (last + 1) fun k member => ended k (List.mem_cons_of_mem i member)]

/-- Steps that suffice for every search that ends, from the number of lines and their lengths. -/
def lineSteps (lines : List Text) : Nat :=
  8 * ((lines.map fun raw => 4 * raw.length + 4).sum + 8)

theorem steps_le_lineSteps (lines : List Text) : (ofLines lines).steps ≤ lineSteps lines := by
  have sum : ∀ index, (((readFrom index lines).map Prod.fst).map fun l => l.code.length + 4).sum ≤
      (lines.map fun raw => 4 * raw.length + 4).sum := by
    induction lines with
    | nil => simp [readFrom]
    | cons raw rest ih =>
        intro index
        have here := Line.read_code_length_le raw index
        have later := ih (index + 1)
        simp only [readFrom, List.map_cons, List.sum_cons]
        omega
  have whole := sum 0
  rw [steps_eq, lineSteps]
  simp only [ofLines, read]
  omega

theorem hasPlan_iff (s : Script) :
    s.hasPlan = true ↔ ∀ i ∈ s.searched s.steps s.size 0, ¬ s.NeverEnds i := by
  simp only [hasPlan, List.all_eq_true, bne_iff_ne]
  constructor
  · intro ended i member never
    exact ended i member (extentWithin_of_neverEnds s i s.steps never)
  · intro ends i member out
    exact ends i member (neverEnds_of_out s i s.steps (Nat.le_refl _) out)

end Script

/-- With steps in the number and lengths of the lines, the search for the end of a construct runs out
exactly when it comes to an `END ELSE` that is followed by a nested branch on the same line. No number
of steps helps there. A script has a plan when its sweep meets no such search, and more steps do not
change this plan. -/
theorem search_ends_iff (lines : List Text) :
    let s := Script.ofLines lines
    (∀ i steps, Script.lineSteps lines ≤ steps →
      (s.extentWithin s.size steps i = .outOfSteps ↔ s.NeverEnds i)) ∧
    (∀ i, s.NeverEnds i → ∀ steps, s.extentWithin s.size steps i = .outOfSteps) ∧
    (s.hasPlan = true ↔ ∀ i ∈ s.searched s.steps s.size 0, ¬ s.NeverEnds i) ∧
    (s.hasPlan = true → ∀ steps, Script.lineSteps lines ≤ steps →
      s.foldQuiet none (s.sweep steps s.size 0 0) = s.plan) := by
  intro s
  have most := Script.steps_le_lineSteps lines
  refine ⟨?_, fun i never steps => Script.extentWithin_of_neverEnds s i steps never,
    Script.hasPlan_iff s, ?_⟩
  · intro i steps enough
    exact ⟨Script.neverEnds_of_out s i steps (Nat.le_trans most enough),
      Script.extentWithin_of_neverEnds s i steps⟩
  · intro planned steps enough
    rw [Script.plan, Script.sweep_mono s s.steps steps s.size 0 0 (Nat.le_trans most enough)]
    simpa [Script.hasPlan, Script.extent] using planned

/-- A valid line on which the `ELSE` of the outer branch is taken for one of the innermost. -/
def nestedElse : List Text :=
  ["IF 1=1 BEGIN PRINT 1 END ELSE IF 2=2 IF 3=3 PRINT 2"]

theorem nestedElse_neverEnds : (Script.ofLines nestedElse).NeverEnds 0 := by
  have ended : (EndSearch.loop 0 "1=1 BEGIN PRINT 1 END ELSE IF 2=2 IF 3=3 PRINT 2").run
      (Script.ofLines nestedElse) (Script.ofLines nestedElse).size 2 = .found 0 := by
    decide +kernel
  have endedAgain : (Script.ofLines nestedElse).loopEnd (Script.ofLines nestedElse).size 2 0
      (afterLeading "IF 3=3 PRINT 2") = .found 0 := by
    decide +kernel
  refine ⟨.branch 0 "1=1 BEGIN PRINT 1 END ELSE IF 2=2 IF 3=3 PRINT 2", 0, ?_,
    .single (.onward rfl ended (by simp)), ?_⟩
  · have kind : ((Script.ofLines nestedElse).line 0).opener = some .branch := by decide +kernel
    have rest : afterLeading ((Script.ofLines nestedElse).line 0).code =
        "1=1 BEGIN PRINT 1 END ELSE IF 2=2 IF 3=3 PRINT 2" := by
      decide +kernel
    rw [Script.opening, kind, rest]
  · exact ⟨"IF 2=2 IF 3=3 PRINT 2", "IF 3=3 PRINT 2", by decide +kernel, by decide +kernel,
      afterLeading "IF 3=3 PRINT 2", .here (by decide +kernel), 2, endedAgain⟩

theorem nestedElse_no_plan :
    (∀ steps, (Script.ofLines nestedElse).extentWithin 1 steps 0 = .outOfSteps) ∧
      (Script.ofLines nestedElse).hasPlan = false := by
  have size : (Script.ofLines nestedElse).size = 1 := by decide +kernel
  have out := fun steps => Script.extentWithin_of_neverEnds _ 0 steps nestedElse_neverEnds
  rw [size] at out
  refine ⟨out, Bool.eq_false_iff.mpr fun planned => ?_⟩
  refine (Script.hasPlan_iff _).mp planned 0 ?_ nestedElse_neverEnds
  rw [size, Script.searched, size]
  simp only [if_false, Nat.not_le.mpr Nat.one_pos]
  split <;> exact List.mem_cons_self

end ScriptAtlas
