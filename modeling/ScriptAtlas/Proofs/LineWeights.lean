import ScriptAtlas.Proofs.SourceText
import ScriptAtlas.Proofs.Words

/-!
The weight of a script is linear in its length: a rule counts at most once for each place of a line, and
so does a control word.
-/

namespace ScriptAtlas

namespace Pattern

theorem allFrom_length_le (p : Pattern) (behind : Text) (skip : Nat) (ahead : Text) :
    (p.allFrom behind skip ahead).length ≤ ahead.length := by
  induction ahead generalizing behind skip with
  | nil => exact Nat.le_refl 0
  | cons b rest ih =>
      cases skip with
      | succ skip => exact Nat.le_succ_of_le (ih (b :: behind) skip)
      | zero =>
          rw [allFrom]
          split
          · exact Nat.succ_le_succ (ih (b :: behind) _)
          · exact Nat.le_succ_of_le (ih (b :: behind) 0)

theorem substituteFrom_length_le (p : Pattern) (put : Text) (short : put.length ≤ 1) (behind : Text)
    (skip : Nat) (ahead : Text) : (p.substituteFrom put behind skip ahead).length ≤ ahead.length := by
  induction ahead generalizing behind skip with
  | nil => exact Nat.le_refl 0
  | cons b rest ih =>
      cases skip with
      | succ skip => exact Nat.le_succ_of_le (ih (b :: behind) skip)
      | zero =>
          rw [substituteFrom]
          split
          · rename_i hit _
            have later := ih (b :: behind) (hit.text.length - 1)
            rw [List.length_append, List.length_cons]
            omega
          · exact Nat.succ_le_succ (ih (b :: behind) 0)

end Pattern

namespace Text

theorem eraseDups_length_le (ts : List Text) : ts.eraseDups.length ≤ ts.length := by
  induction size : ts.length using Nat.strong_induction_on generalizing ts with
  | _ n ih =>
      cases ts with
      | nil => exact Nat.zero_le _
      | cons t rest =>
          have fewer := List.length_filter_le (fun s => !s == t) rest
          rw [List.length_cons] at size
          have later := ih _ (by omega) (rest.filter fun s => !s == t) rfl
          rw [List.eraseDups_cons, List.length_cons]
          omega

theorem replaceFrom_length_le (needle put : Text) (shorter : put.length ≤ needle.length)
    (nonempty : 0 < needle.length) (skip : Nat) (t : Text) :
    (replaceFrom needle put skip t).length ≤ t.length - skip := by
  induction t generalizing skip with
  | nil => exact Nat.zero_le _
  | cons b rest ih =>
      cases skip with
      | succ skip =>
          have later := ih skip
          rw [replaceFrom, List.length_cons]
          omega
      | zero =>
          rw [replaceFrom]
          split
          · rename_i found
            have fits := (List.isPrefixOf_iff_prefix.mp found).length_le
            have later := ih (needle.length - 1)
            rw [List.length_append]
            rw [List.length_cons] at fits ⊢
            omega
          · exact Nat.succ_le_succ (ih 0)

theorem withoutBack_length_le (t p : Text) : (t.withoutBack p).length ≤ t.length := by
  rw [withoutBack]
  split
  · exact List.length_take_le' _ _
  · exact Nat.le_refl _

/-- Each line takes its own bytes and one for its end. -/
theorem join_length {lines : List Text} (nonempty : lines ≠ []) :
    (join [0x0A] lines).length + 1 = (lines.map fun line => line.length + 1).sum := by
  induction lines with
  | nil => exact absurd rfl nonempty
  | cons line rest ih =>
      cases rest with
      | nil => rfl
      | cons next rest =>
          have later := ih (List.cons_ne_nil next rest)
          simp only [join, List.map_cons, List.sum_cons, List.length_append, List.length_singleton] at later ⊢
          omega

end Text

namespace Rule

theorem weightOf_le (r : Rule) (count : Nat) : r.weightOf count ≤ r.weight * count := by
  rw [weightOf]
  split
  · exact Nat.zero_le _
  · rename_i positive
    have least : r.weight ≤ r.weight * count :=
      Nat.le_mul_of_pos_right _ (Nat.pos_of_ne_zero (by simpa using positive))
    split
    · exact Nat.le_refl _
    · exact least

theorem tags_length_le (r : Rule) (code : Text) : (r.tags code).length ≤ code.length + 1 := by
  rw [tags]
  split
  · split
    · exact Nat.le_add_left 1 _
    · exact Nat.zero_le _
  · rename_i label _ accepts _
    have hits : (r.pattern.all code).length ≤ code.length := r.pattern.allFrom_length_le [] 0 code
    have accepted := List.length_filter_le accepts (r.pattern.all code)
    have marked := List.length_filterMap_le (fun hit : Pattern.Hit => hit.marked.head?.map (label ++ ·))
      ((r.pattern.all code).filter accepts)
    exact (Text.eraseDups_length_le _).trans (by omega)

theorem weights_le (rules : List Rule) (code : Text) :
    (rules.zip (rules.map fun rule => rule.tags code)).foldr
        (fun ruled sum => ruled.1.weightOf ruled.2.length + sum) 0 ≤
      (rules.map Rule.weight).sum * (code.length + 1) := by
  induction rules with
  | nil => exact Nat.zero_le _
  | cons r rest ih =>
      have here := (r.weightOf_le (r.tags code).length).trans
        (Nat.mul_le_mul_left r.weight (r.tags_length_le code))
      rw [List.map_cons, List.zip_cons_cons, List.foldr_cons, List.map_cons, List.sum_cons, Nat.add_mul]
      exact Nat.add_le_add here ih

end Rule

namespace Line

theorem controlWeights_le (words : List Text) :
    words.foldr (fun word sum => Vocabulary.controlWeight word + sum) 0 ≤ 2 * words.length := by
  induction words with
  | nil => exact Nat.zero_le _
  | cons word rest ih =>
      have here : Vocabulary.controlWeight word ≤ 2 := by
        rw [Vocabulary.controlWeight]
        split <;> omega
      rw [List.foldr_cons, List.length_cons]
      omega

theorem controlOf_length_le (code : Text) : (controlOf code).length ≤ code.length := by
  have kept := (Pattern.edge ++ Vocabulary.beginTransaction).substituteFrom_length_le " "
    (by decide) [] 0 code
  have hits := Vocabulary.controlWord.allFrom_length_le [] 0
    ((Pattern.edge ++ Vocabulary.beginTransaction).substitute " " code)
  refine (Text.eraseDups_length_le _).trans ?_
  rw [List.length_map]
  exact hits.trans kept

theorem ofCode_weight_le (code : Text) : (ofCode code).weight ≤ 39 * code.upper.length + 37 := by
  have total : (Vocabulary.rules.map Rule.weight).sum = 37 := by decide +kernel
  have ruled := Rule.weights_le Vocabulary.rules code.upper
  have worded := controlWeights_le (controlOf code.upper)
  have control := controlOf_length_le code.upper
  rw [total] at ruled
  rw [ofCode]
  dsimp only
  omega

theorem read_weight_le (raw : Text) (index : Int) : (read raw index).1.weight ≤ 156 * (raw.length + 1) := by
  rw [read]
  dsimp only
  split
  · exact Nat.zero_le _
  · split
    · exact Nat.zero_le _
    · have trimmed := Text.trim_length_le raw
      have stripped := stripFrom_length_le .code raw.trim
      have code := Text.trim_length_le (stripFrom .code raw.trim).1
      have upper := Text.upper_length_le (Text.trim (stripFrom .code raw.trim).1)
      have weight := ofCode_weight_le (Text.trim (stripFrom .code raw.trim).1)
      simp only [strip]
      omega

end Line

namespace Script

theorem ofLines_weight_le (lines : List Text) :
    ((ofLines lines).toList.map Line.weight).sum ≤ 156 * (lines.map fun raw => raw.length + 1).sum := by
  have each : ∀ index, (((readFrom index lines).map Prod.fst).map Line.weight).sum ≤
      156 * (lines.map fun raw => raw.length + 1).sum := by
    induction lines with
    | nil => simp [readFrom]
    | cons raw rest ih =>
        intro index
        have here := Line.read_weight_le raw index
        have later := ih (index + 1)
        simp only [readFrom, List.map_cons, List.sum_cons]
        omega
  exact each 0

theorem splitLines_lengths_le (content : Text) :
    ((splitLines content).map fun raw => raw.length + 1).sum ≤ content.length + 1 := by
  have joined := join_splitLines content
  cases lines : splitLines content with
  | nil => exact Nat.zero_le _
  | cons line rest =>
      have length := Text.join_length (List.cons_ne_nil line rest)
      have replaced := Text.replaceFrom_length_le "\r\n" "\n" (by decide) (by decide) 0 content
      have kept := Text.withoutBack_length_le (content.replace "\r\n" "\n") "\n"
      rw [lines] at joined
      have size := congrArg List.length joined
      change (Text.replace content "\r\n" "\n").length ≤ content.length - 0 at replaced
      change (Text.join [0x0A] (line :: rest)).length = _ at size
      omega

theorem weight_le (content : Text) (lo hi : Nat) :
    (ofLines (splitLines content)).weight lo hi ≤ 156 * (content.length + 1) := by
  have all := ofLines_weight_le (splitLines content)
  have lengths := splitLines_lengths_le content
  have some : ((ofLines (splitLines content)).slice lo hi).Sublist (ofLines (splitLines content)).toList :=
    (List.take_sublist _ _).trans (List.drop_sublist _ _)
  rw [weight_eq_sum]
  have part := (some.map Line.weight).sum_le_sum (fun _ _ => Nat.zero_le _)
  omega

end Script

end ScriptAtlas
