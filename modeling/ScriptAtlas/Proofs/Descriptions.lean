import ScriptAtlas.Proofs.Names

/-!
The texts that describe chunks: titles, summaries and the reasons of divisions are made of names, of
numbers and of plain words, with neither line ends nor colons of their own.
-/

namespace ScriptAtlas

def isProseByte (b : UInt8) : Bool :=
  0x20 ≤ b && b ≤ 0x7E && b != 0x3A && b != 0x60

/-- A property of texts that every text of prose bytes and names has. -/
structure Prose (holds : Text → Prop) : Prop where
  nil : holds []
  append : ∀ {s t : Text}, holds s → holds t → holds (s ++ t)
  byte : ∀ b, isProseByte b = true → holds [b]
  longS : holds [0xC5, 0xBF]
  kelvinSign : holds [0xE2, 0x84, 0xAA]

theorem isProseByte_of_spelling (b : UInt8) (spelling : isSpellingByte b = true) :
    isProseByte b = true := by
  have bounds := isSpellingByte_bounds spelling
  simp only [isProseByte, Bool.and_eq_true, decide_eq_true_eq, bne_iff_ne, ne_eq,
    UInt8.le_iff_toNat_le, ← UInt8.toNat_inj, UInt8.reduceToNat]
  omega

theorem isProseByte_of_digit (b : UInt8) (digit : Text.isDigit b = true) : isProseByte b = true := by
  simp only [Text.isDigit, isProseByte, Bool.and_eq_true, decide_eq_true_eq, bne_iff_ne, ne_eq,
    UInt8.le_iff_toNat_le, ← UInt8.toNat_inj, UInt8.reduceToNat] at digit ⊢
  omega

theorem Vocabulary.fixedTags_prose : ∀ tag ∈ fixedTags, tag.all isProseByte = true := by
  decide

namespace Prose

variable {holds : Text → Prop} (prose : Prose holds)

include prose

theorem spelled : Spelled holds where
  nil := prose.nil
  append := prose.append
  byte b spelling := prose.byte b (isProseByte_of_spelling b spelling)
  longS := prose.longS
  kelvinSign := prose.kelvinSign

theorem words {t : Text} (bytes : t.all isProseByte = true) : holds t := by
  induction t with
  | nil => exact prose.nil
  | cons b rest ih =>
      rw [List.all_cons, Bool.and_eq_true] at bytes
      exact prose.append (s := [b]) (prose.byte b bytes.1) (ih bytes.2)

theorem ofNat (n : Nat) : holds (Text.ofNat n) :=
  prose.words (List.all_eq_true.mpr fun b member =>
    isProseByte_of_digit b (Text.isDigit_of_mem_ofNat member))

theorem ofInt (n : Int) : holds (Text.ofInt n) := by
  cases n with
  | ofNat n => exact prose.ofNat n
  | negSucc n => exact prose.append (s := [0x2D]) (prose.byte _ (by decide)) (prose.ofNat (n + 1))

theorem join {sep : Text} {items : List Text} (between : holds sep) (each : ∀ item ∈ items, holds item) :
    holds (Text.join sep items) := by
  induction items with
  | nil => exact prose.nil
  | cons item rest ih =>
      rw [List.forall_mem_cons] at each
      cases rest with
      | nil => exact each.1
      | cons next rest => exact prose.append (prose.append each.1 between) (ih each.2)

end Prose

/-! ### Titles and summaries -/

namespace Chunk

variable {holds : Text → Prop} (prose : Prose holds)

/-- What a chunk of a script is known to say. -/
structure Told (holds : Text → Prop) (c : Chunk) : Prop where
  names : c.names.Named holds
  kind : c.kind.isKnown = true
  parts : ∀ p, c.part = some p → p.parentKind.isKnown = true ∧ holds p.reason
  title : c.title = c.titleOf
  summary : c.summary = c.summaryOf

include prose

theorem title_holds (kind : ChunkKind) : holds kind.title := by
  cases kind with
  | unknown name => exact prose.words (t := ChunkKind.general.title) (by decide)
  | _ => exact prose.words (by decide)

theorem humanize_holds {name : Text} (known : name ∈ Vocabulary.businessFunctions.map Prod.fst) :
    holds (humanize name) ∧ holds (humanize name).lower := by
  have each : ∀ name ∈ Vocabulary.businessFunctions.map Prod.fst,
      (humanize name).all isProseByte = true ∧ (humanize name).lower.all isProseByte = true := by
    decide
  exact ⟨prose.words (each name known).1, prose.words (each name known).2⟩

theorem baseOperation_holds {tag : Text} (isTag : Vocabulary.IsTag holds tag)
    (base : tag.elem 0x3A = false) : holds tag := by
  have labels : ∀ label ∈ Vocabulary.tagLabels, label.elem 0x3A = false →
      label.all isProseByte = true := by
    decide
  rcases isTag with listed | ⟨label, listed, name, has, rfl⟩
  · exact prose.words (Vocabulary.fixedTags_prose tag listed)
  · refine prose.append (prose.words (labels label listed ?_)) has
    simp only [List.elem_eq_mem, List.mem_append, decide_eq_false_iff_not, not_or] at base ⊢
    exact base.1

variable {c : Chunk} (told : c.Told holds)

include told

theorem baseOperations_hold : ∀ tag ∈ baseOperations c.operations, holds tag := by
  intro tag member
  rw [baseOperations, List.mem_filter, Bool.not_eq_true'] at member
  exact baseOperation_holds prose (told.names.operations tag member.1) member.2

theorem focus_holds : ∀ word ∈ c.focus, holds word := by
  intro word member
  rw [focus] at member
  split at member
  · obtain ⟨name, taken, rfl⟩ := List.mem_map.mp member
    exact (humanize_holds prose (told.names.business name (List.mem_of_mem_take taken))).1
  · split at member
    · exact baseOperations_hold prose told word (List.mem_of_mem_take member)
    · exact told.names.control word (List.mem_of_mem_take member)

theorem titleOf_holds : holds c.titleOf := by
  have words : ∀ {t : Text}, t.all isProseByte = true → holds t := prose.words
  rw [titleOf]
  refine prose.append (prose.append (title_holds prose c.kind) ?_) ?_
  · split
    · exact prose.nil
    · exact prose.append (words (by decide))
        (prose.join (words (by decide)) (focus_holds prose told))
  · split
    · rename_i p _
      exact prose.append (prose.append (prose.append (prose.append (words (by decide))
        (prose.ofInt p.ordinal)) (words (by decide))) (prose.ofInt p.total))
        (words (by decide))
    · exact prose.nil

omit told in
theorem sentence_holds {before after : String} {items : List Text}
    (first : (Text.ofString before).all isProseByte = true) (each : ∀ item ∈ items, holds item)
    (last : (Text.ofString after).all isProseByte = true) :
    ∀ text ∈ sentence before items after, holds text := by
  intro text member
  rw [sentence] at member
  split at member
  · cases member
  · rw [List.mem_singleton] at member
    rw [member]
    exact prose.append (prose.append (prose.words first)
      (prose.join (prose.words (by decide)) each)) (prose.words last)

omit told in
theorem placement_holds (p : Part) (known : p.parentKind.isKnown = true) :
    holds ("Part " ++ Text.ofInt p.ordinal ++ " of " ++ Text.ofInt p.total ++ " of the " ++
      p.parentKind.name.replace "_" " " ++ " block at lines " ++ Text.ofInt p.parentStart ++ "-" ++
      Text.ofInt p.parentEnd ++ ".") := by
  have words : ∀ {t : Text}, t.all isProseByte = true → holds t := prose.words
  have kinds : ∀ kind ∈ ChunkKind.priority, (kind.name.replace "_" " ").all isProseByte = true := by
    decide
  have kind := words (kinds p.parentKind (List.elem_iff.mp known))
  refine prose.append (prose.append (prose.append (prose.append (prose.append (prose.append
    (prose.append (prose.append (prose.append (prose.append ?_ (prose.ofInt _)) ?_) (prose.ofInt _)) ?_)
    kind) ?_) (prose.ofInt _)) ?_) (prose.ofInt _)) ?_ <;> exact words (by decide)

theorem sentences_hold : ∀ text ∈ c.sentences, holds text := by
  have words : ∀ {t : Text}, t.all isProseByte = true → holds t := prose.words
  have numbers : ∀ item ∈ c.dependencies.map Text.ofInt, holds item := by
    intro item member
    obtain ⟨n, _, rfl⟩ := List.mem_map.mp member
    exact prose.ofInt n
  have business : ∀ item ∈ c.business.map (fun f => (humanize f).lower), holds item := by
    intro item member
    obtain ⟨name, listed, rfl⟩ := List.mem_map.mp member
    exact (humanize_holds prose (told.names.business name listed)).2
  have linked : ∀ {before : String} {n : Int} {text : Text}, (Text.ofString before).all isProseByte = true →
      text ∈ (if 0 < n then [Text.ofString before ++ Text.ofInt n ++ "."] else []) → holds text := by
    intro before n text first member
    split at member
    · rw [List.mem_singleton] at member
      exact member ▸ prose.append (prose.append (words first) (prose.ofInt n)) (words (by decide))
    · cases member
  intro text member
  simp only [sentences, List.mem_append] at member
  rcases member with ((((((handled | performed) | used) | touched) | follows) | part) | from_) | in_
  · exact sentence_holds prose (by decide) business (by decide) text handled
  · exact sentence_holds prose (by decide) (baseOperations_hold prose told) (by decide)
      text performed
  · exact sentence_holds prose (by decide) told.names.control (by decide) text used
  · exact sentence_holds prose (by decide) told.names.tables (by decide) text touched
  · exact sentence_holds prose (by decide) numbers (by decide) text follows
  · split at part
    · rename_i p here
      rw [List.mem_singleton] at part
      exact part ▸ placement_holds prose p (told.parts p here).1
    · cases part
  · exact linked (by decide) from_
  · exact linked (by decide) in_

theorem summaryOf_holds : holds c.summaryOf := by
  rw [summaryOf]
  split
  · exact prose.words (by decide)
  · exact prose.join (prose.words (by decide)) (sentences_hold prose told)

end Chunk

/-! ### Strategies -/

theorem Strategy.name_of_parse {name : Text} {strategy : Strategy} (parsed : parse name = .ok strategy) :
    name ∈ Text.ofStrings ["strict_logical", "size_constrained", "hybrid"] := by
  rw [parse, ofName] at parsed
  by_contra other
  have strict : ¬ (name == strictLogical.name) = true := fun same => other (eq_of_beq same ▸ by decide)
  have sized : ¬ (name == sizeConstrained.name) = true := fun same => other (eq_of_beq same ▸ by decide)
  have mixed : ¬ (name == hybrid.name) = true := fun same => other (eq_of_beq same ▸ by decide)
  rw [if_neg strict, if_neg sized, if_neg mixed] at parsed
  cases parsed

theorem Sizing.strategy_of_check {z : Sizing} (valid : z.check = .ok ()) :
    z.strategy.name ∈ Text.ofStrings ["strict_logical", "size_constrained", "hybrid"] := by
  obtain ⟨strategy, parsed, -⟩ := (bind_eq_ok_iff _ _ _).mp valid
  exact Strategy.name_of_parse parsed

/-! ### The chunks of a script -/

namespace Divider

theorem mem_partChunks {d : Divider} {part : Part} {ordinal : Int} {parts : List Block} {c : Chunk}
    (member : c ∈ d.partChunks part ordinal parts) :
    ∃ lo hi n, c = { Chunk.ofLines d.script lo hi with part := some { part with ordinal := n } } := by
  induction parts generalizing ordinal with
  | nil => cases member
  | cons p rest ih =>
      rw [partChunks, List.mem_cons] at member
      rcases member with rfl | later
      · exact ⟨p.start, p.stop, ordinal, rfl⟩
      · exact ih later

theorem mem_chunksOf {d : Divider} {b : Block} {c : Chunk} (member : c ∈ d.chunksOf b) :
    ∃ lo hi part, c = { Chunk.ofLines d.script lo hi with part := part } ∧
      ∀ p, part = some p → p.parentKind.isKnown = true ∧ ∃ sources, p.reason = d.reason b sources := by
  rw [chunksOf] at member
  split at member
  · exact ⟨b.start, b.stop, none, List.mem_singleton.mp member, fun p none => by cases none⟩
  · dsimp only at member
    split at member
    · exact ⟨b.start, b.stop, none, List.mem_singleton.mp member, fun p none => by cases none⟩
    · obtain ⟨lo, hi, n, rfl⟩ := mem_partChunks member
      refine ⟨lo, hi, _, rfl, ?_⟩
      rintro p ⟨⟩
      exact ⟨ChunkKind.dominant_isKnown _, _, rfl⟩

theorem reason_holds {holds : Text → Prop} (prose : Prose holds) (d : Divider) (b : Block)
    (sources : List CutSource) : holds (d.reason b sources) := by
  have words : ∀ {t : Text}, t.all isProseByte = true → holds t := prose.words
  rw [reason]
  refine prose.append ?_ ?_
  · refine prose.join (words (by decide)) fun item member => ?_
    rcases List.mem_append.mp member with size | heavy
    · split at size
      · rw [List.mem_singleton.mp size]
        exact prose.append (prose.append (prose.ofInt _) (words (by decide))) (prose.ofInt _)
      · split at size
        · rw [List.mem_singleton.mp size]
          exact prose.append (prose.append (prose.ofInt _) (words (by decide))) (prose.ofInt _)
        · cases size
    · split at heavy
      · rw [List.mem_singleton.mp heavy]
        exact prose.append (prose.append (prose.append (words (by decide)) (prose.ofInt _))
          (words (by decide))) (prose.ofInt _)
      · cases heavy
  · split
    · exact prose.nil
    · refine prose.append (words (by decide)) (prose.join (words (by decide)) ?_)
      intro item member
      obtain ⟨source, _, rfl⟩ := List.mem_map.mp member
      cases source <;> exact words (by decide)

end Divider

namespace Script

theorem ofLines_named {holds : Text → Prop} (spelled : Spelled holds) (lines : List Text) :
    ∀ l ∈ (ofLines lines).toList, l.names.Named holds :=
  ofLines_forall (Line.read_named spelled) lines

theorem mem_slice {s : Script} {lo hi : Nat} {l : Line} (member : l ∈ s.slice lo hi) : l ∈ s.toList :=
  List.mem_of_mem_drop (List.mem_of_mem_take member)

theorem chunks_named {holds : Text → Prop} (spelled : Spelled holds) (lines : List Text) (z : Sizing) :
    ∀ c ∈ (ofLines lines).chunks z, c.names.Named holds := by
  intro c member
  obtain ⟨b, _, d, inside, same⟩ := mem_chunks member
  obtain ⟨lo, hi, part, rfl, -⟩ := Divider.mem_chunksOf inside
  have names := congrArg Chunk.names same
  have named : (Chunk.ofLines (ofLines lines) lo hi).names.Named holds :=
    Chunk.ofLines_named fun l inside => ofLines_named spelled lines l (mem_slice inside)
  exact Eq.mpr (congrArg (NameLists.Named holds) names) named

theorem chunks_told {holds : Text → Prop} (prose : Prose holds) (lines : List Text) (z : Sizing) :
    ∀ c ∈ (ofLines lines).chunks z, c.Told holds := by
  intro c member
  have named := chunks_named prose.spelled lines z c member
  obtain ⟨d, linked, rfl⟩ := List.mem_map.mp member
  obtain ⟨b, _, e, inside, same⟩ := mem_chunks member
  obtain ⟨lo, hi, part, rfl, parts⟩ := Divider.mem_chunksOf inside
  have kinds : d.kind = ChunkKind.dominant ((ofLines lines).slice lo hi) := congrArg Chunk.kind same
  have partOf : d.part = part := congrArg Chunk.part same
  refine ⟨named, ?_, ?_, rfl, rfl⟩
  · exact kinds ▸ ChunkKind.dominant_isKnown _
  · intro p here
    obtain ⟨known, sources, reason⟩ := parts p (partOf ▸ here)
    exact ⟨known, reason ▸ Divider.reason_holds prose _ b sources⟩

end Script

end ScriptAtlas
