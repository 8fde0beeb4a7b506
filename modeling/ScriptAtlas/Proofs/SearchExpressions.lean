import ScriptAtlas.Store.Query

/-!
Search expressions as their reader meets them: phrases in quotes, bare words, and signs. The expression of a
query reads as the words of the query that can be searched for, each a phrase that holds this word, with the
word `OR` between them. So nothing that a query holds is read as an operator.
-/

namespace ScriptAtlas

namespace Query

/-! ### Phrases -/

/-- The content of a phrase after its opening quote, and what follows its closing quote. The closing quote is
the first one that is not written twice. -/
def readPhrase : Text → Option (Text × Text)
  | [] => none
  | b :: rest =>
    if b == quoteMark then
      match rest with
      | [] => some ([], [])
      | c :: after =>
        if c == quoteMark then
          (readPhrase after).map fun (content, left) => (quoteMark :: content, left)
        else some ([], c :: after)
    else (readPhrase rest).map fun (content, left) => (b :: content, left)

def doubled (t : Text) : Text :=
  t.replace [quoteMark] [quoteMark, quoteMark]

@[simp] theorem doubled_nil : doubled [] = [] :=
  rfl

theorem doubled_quote (t : Text) : doubled (quoteMark :: t) = quoteMark :: quoteMark :: doubled t := by
  simp [doubled, Text.replace, Text.replaceFrom]

theorem doubled_cons {b : UInt8} (plain : b ≠ quoteMark) (t : Text) : doubled (b :: t) = b :: doubled t := by
  simp [doubled, Text.replace, Text.replaceFrom, plain.symm]

theorem readPhrase_doubled (content : Text) {left : Text} (closed : left.head? ≠ some quoteMark) :
    readPhrase (doubled content ++ quoteMark :: left) = some (content, left) := by
  induction content with
  | nil =>
      cases left with
      | nil => rfl
      | cons c after =>
          have other : c ≠ quoteMark := by simpa using closed
          simp [readPhrase, other]
  | cons b content ih =>
      by_cases quote : b = quoteMark
      · rw [quote, doubled_quote]
        simp [readPhrase, ih]
      · rw [doubled_cons quote, List.cons_append, readPhrase.eq_def]
        simp [quote, ih]

theorem eq_of_readPhrase {t content left : Text} (read : readPhrase t = some (content, left)) :
    t = doubled content ++ quoteMark :: left ∧ left.head? ≠ some quoteMark := by
  fun_induction readPhrase t generalizing content with
  | case1 => cases read
  | case2 b quote =>
      cases read
      exact ⟨by rw [eq_of_beq quote]; rfl, by simp⟩
  | case3 b quote c after quote' ih =>
      obtain ⟨⟨content', left'⟩, read', same⟩ := Option.map_eq_some_iff.mp read
      cases same
      obtain ⟨split, closed⟩ := ih read'
      rw [doubled_quote, eq_of_beq quote, eq_of_beq quote', split]
      exact ⟨rfl, closed⟩
  | case4 b quote c after other =>
      cases read
      rw [eq_of_beq quote]
      exact ⟨rfl, by simpa using other⟩
  | case5 b rest plain ih =>
      obtain ⟨⟨content', left'⟩, read', same⟩ := Option.map_eq_some_iff.mp read
      cases same
      obtain ⟨split, closed⟩ := ih read'
      rw [doubled_cons (by simpa using plain), split]
      exact ⟨rfl, closed⟩

/-- Reading accepts exactly what doubling and a closing quote produce. -/
theorem readPhrase_eq_some_iff (t content left : Text) : readPhrase t = some (content, left) ↔
    t = doubled content ++ quoteMark :: left ∧ left.head? ≠ some quoteMark :=
  ⟨eq_of_readPhrase, fun ⟨split, closed⟩ => split ▸ readPhrase_doubled content closed⟩

/-! ### Expressions -/

inductive Token where
  | phrase (content : Text)
  | word (name : Text)
  | sign (b : UInt8)
  deriving DecidableEq, Repr

def isSpace (b : UInt8) : Bool :=
  b == 0x20 || b == 0x09 || b == 0x0A || b == 0x0D

/-- Bytes of a bare word: letters, digits, the underscore, the substitute character and all bytes beyond
ASCII. -/
def isBareByte (b : UInt8) : Bool :=
  (0x30 ≤ b && b ≤ 0x39) || (0x41 ≤ b && b ≤ 0x5A) || (0x61 ≤ b && b ≤ 0x7A) || b == 0x5F || b == 0x1A || 0x80 ≤ b

/-- The pieces of an expression; none are read where a phrase is not closed. -/
def tokens? (t : Text) : Option (List Token) :=
  match t with
  | [] => some []
  | b :: rest =>
    if isSpace b then tokens? rest
    else if b == quoteMark then
      match _read : readPhrase rest with
      | none => none
      | some (content, left) => (tokens? left).map (.phrase content :: ·)
    else if isBareByte b then
      (tokens? (rest.dropWhile isBareByte)).map (.word (b :: rest.takeWhile isBareByte) :: ·)
    else (tokens? rest).map (.sign b :: ·)
termination_by t.length
decreasing_by
  · simp
  · obtain ⟨rfl, -⟩ := eq_of_readPhrase _read
    simp
    omega
  · have shorter : (rest.dropWhile isBareByte).length ≤ rest.length :=
      (List.dropWhile_sublist isBareByte).length_le
    simp
    omega
  · simp

theorem tokens_space {b : UInt8} (space : isSpace b = true) (rest : Text) :
    tokens? (b :: rest) = tokens? rest := by
  rw [tokens?, if_pos space]

theorem tokens_bare {b : UInt8} (space : isSpace b = false) (quote : b ≠ quoteMark)
    (bare : isBareByte b = true) (rest : Text) :
    tokens? (b :: rest) =
      (tokens? (rest.dropWhile isBareByte)).map (.word (b :: rest.takeWhile isBareByte) :: ·) := by
  rw [tokens?, if_neg (by simp [space]), if_neg (by simpa using quote), if_pos bare]

theorem tokens_quotedTerm (word : Text) {rest : Text} (closed : rest.head? ≠ some quoteMark) :
    tokens? (quotedTerm word ++ rest) = (tokens? rest).map (.phrase word :: ·) := by
  have text : quotedTerm word ++ rest = quoteMark :: (doubled word ++ quoteMark :: rest) := by
    rw [quotedTerm, List.cons_append, List.cons_append, List.append_assoc]
    rfl
  rw [text, tokens?, if_neg (by decide), if_pos (by decide)]
  split
  · rename_i none
    rw [readPhrase_doubled word closed] at none
    cases none
  · rename_i content left some
    rw [readPhrase_doubled word closed] at some
    cases some
    rfl

theorem tokens_or (rest : Text) :
    tokens? (" OR " ++ rest) = (tokens? rest).map (.word "OR" :: ·) := by
  have text : " OR " ++ rest = 0x20 :: 0x4F :: 0x52 :: 0x20 :: rest := rfl
  rw [text, tokens_space (by decide), tokens_bare (by decide) (by decide) (by decide)]
  have read : (0x52 :: 0x20 :: rest).takeWhile isBareByte = [0x52] ∧
      (0x52 :: 0x20 :: rest).dropWhile isBareByte = 0x20 :: rest := ⟨rfl, rfl⟩
  rw [read.1, read.2, tokens_space (by decide)]
  rfl

theorem tokens_join (words : List Text) : tokens? (Text.join " OR " (words.map quotedTerm)) =
    some ((words.map Token.phrase).intersperse (.word "OR")) := by
  induction words with
  | nil => rw [List.map_nil, Text.join, tokens?]; rfl
  | cons word words ih =>
      cases words with
      | nil =>
          have read : tokens? (quotedTerm word ++ []) = (tokens? []).map (.phrase word :: ·) :=
            tokens_quotedTerm word (by simp)
          rw [List.append_nil, tokens?] at read
          exact read
      | cons next words =>
          have text : Text.join " OR " ((word :: next :: words).map quotedTerm) =
              quotedTerm word ++ (" OR " ++ Text.join " OR " ((next :: words).map quotedTerm)) :=
            List.append_assoc _ _ _
          have closed : ∀ rest : Text, (" OR " ++ rest : Text).head? ≠ some quoteMark :=
            fun _ => show some (0x20 : UInt8) ≠ some quoteMark by decide
          rw [text, tokens_quotedTerm word (closed _), tokens_or, ih]
          rfl

theorem join_quotedTerm_eq_nil_iff (words : List Text) :
    Text.join " OR " (words.map quotedTerm) = [] ↔ words = [] := by
  constructor
  · intro empty
    have read := tokens_join words
    rw [empty, tokens?, Option.some_inj] at read
    cases words with
    | nil => rfl
    | cons word words => cases words <;> cases read
  · rintro rfl
    rfl

/-- The expression of a query is empty when the query holds no word with a letter or digit. It reads as those
words, in their order, each a phrase, with `OR` between them. -/
theorem expression_reads (query : Text) :
    (expression query = [] ↔ ∀ word ∈ query.fields, ∀ c ∈ word.chars, Text.isLetterOrDigit c = false) ∧
      tokens? (expression query) =
        some (((query.fields.filter fun word => word.chars.any Text.isLetterOrDigit).map Token.phrase).intersperse
          (.word "OR")) := by
  refine ⟨?_, tokens_join (terms query)⟩
  rw [expression, join_quotedTerm_eq_nil_iff, terms, List.filter_eq_nil_iff]
  simp [isSearchable]

example : expression "say \"hi\" ;; OR" = "\"say\" OR \"\"\"hi\"\"\" OR \"OR\"" := by
  decide +kernel

end Query

end ScriptAtlas
