import ScriptAtlas.Block.Extent
import ScriptAtlas.Proofs.Words

/-!
What stands at the front of a line of code. A line that opens a construct is told apart by its first
word, and never goes on with a construct that was opened before.
-/

namespace ScriptAtlas

namespace Pattern

/-! ### What stands at the front of a text -/

theorem mem_ends_seq (p q : Pattern) (c e : Cursor) :
    e ∈ (p ++ q).ends c ↔ ∃ d ∈ p.ends c, e ∈ q.ends d :=
  List.mem_flatMap

theorem one_reads (accepts : UInt8 → Bool) (c e : Cursor) (ended : e ∈ (one accepts).ends c) :
    ∃ b, accepts b = true ∧ c.ahead = b :: e.ahead := by
  rw [ends] at ended
  split at ended
  · rename_i b rest ahead
    split at ended
    · rename_i accepted
      rw [List.mem_singleton] at ended
      exact ⟨b, accepted, by rw [ahead, ended]⟩
    · cases ended
  · cases ended

theorem bytes_reads (word : Text) (c e : Cursor) (ended : e ∈ (bytes word).ends c) :
    c.ahead = word ++ e.ahead := by
  fun_induction bytes word generalizing c with
  | case1 =>
      rw [ends, List.mem_singleton] at ended
      rw [ended, List.nil_append]
  | case2 b =>
      obtain ⟨first, same, ahead⟩ := one_reads _ c e ended
      rw [ahead, eq_of_beq same]
      rfl
  | case3 b rest _ ih =>
      obtain ⟨d, here, later⟩ := (mem_ends_seq _ _ c e).mp ended
      obtain ⟨first, same, ahead⟩ := one_reads _ c d here
      rw [ahead, ih d later, eq_of_beq same]
      rfl

theorem one_steps_read (accepts : UInt8 → Bool) (c e : Cursor) (steps : (one accepts).Steps c e) :
    ∃ read, c.ahead = read ++ e.ahead ∧ ∀ b ∈ read, accepts b = true := by
  induction steps using Relation.ReflTransGen.head_induction_on with
  | refl => exact ⟨[], rfl, by simp⟩
  | head here _ later =>
      obtain ⟨first, accepted, ahead⟩ := one_reads accepts _ _ here
      obtain ⟨read, rest, each⟩ := later
      exact ⟨first :: read, by rw [ahead, rest]; rfl, List.forall_mem_cons.mpr ⟨accepted, each⟩⟩

theorem leads_word_gap (word : String) (after : Pattern) (t : Text)
    (leads : (lit word ++ (gap ++ after)).leads t = true) :
    ∃ blank blanks d, t = Text.ofString word ++ blank :: (blanks ++ d.ahead) ∧ isGapByte blank = true ∧
      (∀ b ∈ blanks, isGapByte b = true) ∧ after.ends d ≠ [] := by
  obtain ⟨e, ended⟩ : ∃ e, e ∈ (lit word ++ (gap ++ after)).ends ⟨[], t, []⟩ :=
    List.exists_mem_of_ne_nil _ (by simpa [Pattern.leads] using leads)
  obtain ⟨c, inWord, ended⟩ := (mem_ends_seq _ _ _ e).mp ended
  obtain ⟨d, inGap, ended⟩ := (mem_ends_seq _ _ _ e).mp ended
  obtain ⟨c', first, more⟩ := (mem_ends_seq _ _ c d).mp inGap
  obtain ⟨blank, isBlank, ahead⟩ := one_reads isGapByte c c' first
  obtain ⟨blanks, rest, each⟩ := one_steps_read isGapByte c' d (steps_of_many more)
  refine ⟨blank, blanks, d, ?_, isBlank, each, List.ne_nil_of_mem ended⟩
  rw [← rest, ← ahead]
  exact bytes_reads _ _ c inWord

/-- Every text that the pattern begins on starts with one of these bytes. -/
def BeginsOn (p : Pattern) (bytes : List UInt8) : Prop :=
  ∀ c, p.ends c ≠ [] → ∃ b ∈ bytes, c.ahead.head? = some b

theorem lit_beginsOn (word : String) (b : UInt8) (rest : Text)
    (spelled : Text.ofString word = b :: rest) : (lit word).BeginsOn [b] := by
  intro c some
  obtain ⟨e, ended⟩ := List.exists_mem_of_ne_nil _ some
  have ahead := bytes_reads _ c e ended
  rw [spelled] at ahead
  exact ⟨b, List.mem_singleton_self b, by rw [ahead]; rfl⟩

theorem BeginsOn.seq {p : Pattern} {bytes : List UInt8} (begins : p.BeginsOn bytes) (after : Pattern) :
    (p ++ after).BeginsOn bytes := by
  intro c some
  obtain ⟨e, ended⟩ := List.exists_mem_of_ne_nil _ some
  obtain ⟨d, here, _⟩ := (mem_ends_seq p after c e).mp ended
  exact begins c (List.ne_nil_of_mem here)

theorem BeginsOn.maybe {p after : Pattern} {first second : List UInt8} (left : p.BeginsOn first)
    (right : after.BeginsOn second) : (maybe p ++ after).BeginsOn (first ++ second) := by
  intro c some
  obtain ⟨e, ended⟩ := List.exists_mem_of_ne_nil _ some
  obtain ⟨d, here, later⟩ := (mem_ends_seq _ after c e).mp ended
  rcases List.mem_append.mp here with taken | skipped
  · obtain ⟨b, member, head⟩ := left c (List.ne_nil_of_mem taken)
    exact ⟨b, List.mem_append_left _ member, head⟩
  · rw [ends, List.mem_singleton] at skipped
    obtain ⟨b, member, head⟩ := right c (List.ne_nil_of_mem (skipped ▸ later))
    exact ⟨b, List.mem_append_right _ member, head⟩

end Pattern

namespace Word

open Pattern

theorem leading_head (code : Text) : (leading code).head? = code.head? := by
  cases code with
  | nil => rfl
  | cons b rest =>
      rw [leading]
      split
      · rename_i name
        rw [List.takeWhile_cons, if_pos name]
        rfl
      · rfl

theorem leading_append (word : Text) (b : UInt8) (rest : Text) (nonempty : word ≠ [])
    (names : ∀ c ∈ word, isNameByte c = true) (other : isNameByte b = false) :
    leading (word ++ b :: rest) = word := by
  cases word with
  | nil => exact absurd rfl nonempty
  | cons first more =>
      rw [List.cons_append, leading]
      simp only [names first List.mem_cons_self, if_true]
      rw [← List.cons_append, List.takeWhile_append_of_pos names]
      simp [other]

def afterBegin (code : Text) : Text :=
  (code.drop 5).dropWhile isGapByte

theorem begins_of_leads (after : Pattern) (heads : List UInt8) (code : Text)
    (begins : after.BeginsOn heads) (solid : ∀ b ∈ heads, isGapByte b = false)
    (leads : (lit "BEGIN" ++ (gap ++ after)).leads code = true) :
    leading code = "BEGIN" ∧ ∃ b ∈ heads, (afterBegin code).head? = some b := by
  obtain ⟨blank, blanks, d, rfl, isBlank, each, some⟩ := leads_word_gap "BEGIN" after code leads
  obtain ⟨b, member, head⟩ := begins d some
  have noName : isNameByte blank = false := by
    simp only [isGapByte, Bool.or_eq_true, beq_iff_eq] at isBlank
    rcases isBlank with (((rfl | rfl) | rfl) | rfl) | rfl <;> decide
  refine ⟨leading_append _ blank _ (by decide) (by decide +kernel) noName, b, member, ?_⟩
  have blankFront : ∀ x ∈ blank :: blanks, isGapByte x = true := by
    intro x inBlanks
    rcases List.mem_cons.mp inBlanks with rfl | later
    · exact isBlank
    · exact each x later
  rw [afterBegin, List.drop_left' (by decide), ← List.cons_append,
    List.dropWhile_append_of_pos blankFront]
  cases ahead : d.ahead with
  | nil => simp [ahead] at head
  | cons first rest =>
      have same : first = b := by simpa [ahead] using head
      simp [same, solid b member]

theorem beginsTry_word (code : Text) (begins : beginsTry code = true) :
    leading code = "BEGIN" ∧ ∃ b ∈ [0x54], (afterBegin code).head? = some b :=
  begins_of_leads _ _ code ((lit_beginsOn "TRY" 0x54 _ rfl).seq edge) (by decide +kernel) begins

theorem beginsCatch_word (code : Text) (begins : beginsCatch code = true) :
    leading code = "BEGIN" ∧ ∃ b ∈ [0x43], (afterBegin code).head? = some b :=
  begins_of_leads _ _ code ((lit_beginsOn "CATCH" 0x43 _ rfl).seq edge) (by decide +kernel) begins

theorem beginsTransaction_word (code : Text) (begins : beginsTransaction code = true) :
    leading code = "BEGIN" ∧ ∃ b ∈ [0x44] ++ [0x54], (afterBegin code).head? = some b := by
  have distributed := (lit_beginsOn "DISTRIBUTED" 0x44 _ rfl).seq gap
  have transaction := ((lit_beginsOn "TRAN" 0x54 _ rfl).seq (Pattern.maybe (lit "SACTION"))).seq edge
  exact begins_of_leads _ _ code (distributed.maybe transaction) (by decide +kernel) begins

/-- `BEGIN CATCH` begins neither a guarded block nor a transaction. -/
theorem beginsCatch_excludes (code : Text) (begins : beginsCatch code = true) :
    beginsTry code = false ∧ beginsTransaction code = false := by
  obtain ⟨_, c, isC, head⟩ := beginsCatch_word code begins
  have differs : ∀ b ∈ [0x44, 0x54], (afterBegin code).head? ≠ some b := by
    intro b member same
    rw [head, Option.some.injEq] at same
    simp only [List.mem_cons, List.not_mem_nil, or_false] at isC member
    rcases member with rfl | rfl <;> subst isC <;> cases same
  constructor
  · apply Bool.eq_false_iff.mpr
    intro begins
    obtain ⟨_, b, member, same⟩ := beginsTry_word code begins
    exact differs b (by simp_all) same
  · apply Bool.eq_false_iff.mpr
    intro begins
    obtain ⟨_, b, member, same⟩ := beginsTransaction_word code begins
    exact differs b member same

def openers : List Text :=
  Text.ofStrings ["IF", "WHILE"] ++ statementStarters

end Word

namespace Line

open Word

theorem opener_word (l : Line) (kind : BlockKind) (opens : l.opener = some kind) :
    leading l.code ∈ openers ∨ beginsTry l.code = true ∨ beginsTransaction l.code = true ∨
      (leading l.code).head? = some 0x40 := by
  have word : ∀ words, leadsWith l.code words = true → (∀ word ∈ words, word ∈ openers) →
      leading l.code ∈ openers :=
    fun words leads known => known _ (by simpa [leadsWith] using leads)
  rw [opener] at opens
  split at opens
  · cases opens
  · split at opens
    · rename_i leads
      exact .inl (word _ leads (by decide))
    · split at opens
      · rename_i leads
        exact .inl (word _ leads (by decide))
      · split at opens
        · rename_i begins
          exact .inr (.inl begins)
        · split at opens
          · rename_i declares
            simp only [Bool.or_eq_true, Bool.and_eq_true] at declares
            rcases declares with leads | ⟨_, marked⟩
            · exact .inl (word _ leads (by decide))
            · obtain ⟨rest, same⟩ := List.isPrefixOf_iff_prefix.mp marked
              refine .inr (.inr (.inr ?_))
              rw [leading_head, ← same]
              rfl
          · split at opens
            · rename_i starts
              simp only [startsStatement, Bool.and_eq_true, Bool.or_eq_true] at starts
              rcases starts.2 with leads | begins
              · exact .inl (word _ leads (by decide))
              · exact .inr (.inr (.inl begins))
            · cases opens

theorem opener_leads (l : Line) (kind : BlockKind) (opens : l.opener = some kind) :
    leadsWith l.code ["ELSE", "WHEN", "THEN", "CATCH"] = false ∧ beginsCatch l.code = false ∧
      beginsBlock l.code = false := by
  have other : leading l.code ∉ Text.ofStrings ["ELSE", "WHEN", "THEN", "CATCH"] →
      leadsWith l.code ["ELSE", "WHEN", "THEN", "CATCH"] = false := by
    intro absent
    simpa [leadsWith, Text.ofStrings] using absent
  have noCatch : leading l.code ≠ "BEGIN" → beginsCatch l.code = false ∧ beginsBlock l.code = false := by
    intro word
    refine ⟨Bool.eq_false_iff.mpr fun begins => word (beginsCatch_word l.code begins).1, ?_⟩
    simp [beginsBlock, word]
  rcases opener_word l kind opens with member | begins | begins | marked
  · have words : ∀ word ∈ openers, word ∉ Text.ofStrings ["ELSE", "WHEN", "THEN", "CATCH"] ∧
        word ≠ "BEGIN" := by
      decide
    exact ⟨other (words _ member).1, noCatch (words _ member).2⟩
  · refine ⟨other (by rw [(beginsTry_word l.code begins).1]; decide), ?_, by simp [beginsBlock, begins]⟩
    apply Bool.eq_false_iff.mpr
    intro catches
    simp [(beginsCatch_excludes l.code catches).1] at begins
  · refine ⟨other (by rw [(beginsTransaction_word l.code begins).1]; decide), ?_,
      by simp [beginsBlock, begins]⟩
    apply Bool.eq_false_iff.mpr
    intro catches
    simp [(beginsCatch_excludes l.code catches).2] at begins
  · have heads : ∀ word ∈ Text.ofStrings ["ELSE", "WHEN", "THEN", "CATCH", "BEGIN"],
        word.head? ≠ some 0x40 := by
      decide
    have differs : leading l.code ∉ Text.ofStrings ["ELSE", "WHEN", "THEN", "CATCH", "BEGIN"] :=
      fun member => heads _ member marked
    refine ⟨other fun member => differs ?_, noCatch fun same => differs ?_⟩
    · exact List.mem_append_left (Text.ofStrings ["BEGIN"]) member
    · rw [same]
      decide

end Line

end ScriptAtlas
