import ScriptAtlas.Proofs.DirectoryPatterns
import ScriptAtlas.Proofs.Partition
import ScriptAtlas.Proofs.PlainLines

/-!
What stands between two quotes is not read. Where the scan of a line is outside of literals and comments, a
quote opens a literal; whatever the literal holds, the line says the same, but for its text and the business
functions that are looked for in all of it.
-/

namespace ScriptAtlas

/-! ### Blanks in front of a quote and behind one -/

namespace Text

section Trim

variable {two : UInt8 → UInt8 → Bool} {three : UInt8 → UInt8 → UInt8 → Bool} {c : UInt8}

theorem dropBlanks_before (one : isBlank c = false) (pair : ∀ b, two b c = false ∧ two c b = false)
    (triple : ∀ a b, three a b c = false ∧ three a c b = false ∧ three c a b = false) (t post : Text) :
    dropBlanks two three (t ++ c :: post) = dropBlanks two three t ++ c :: post := by
  have step := dropBlanks.eq_def two three
  fun_induction dropBlanks two three t with
  | case1 =>
      rcases post with _ | ⟨a, _ | ⟨b, post⟩⟩ <;> simp [step (c :: _), one, pair, triple]
  | case2 b r blank ih =>
      rw [List.cons_append, step, ← ih]
      simp [blank]
  | case3 b solid =>
      cases post <;> simp [step (b :: c :: _), solid, pair, triple]
  | case4 b solid d r blank ih =>
      rw [List.cons_append, List.cons_append, step, ← ih]
      simp [solid, blank]
  | case5 b solid d apart => simp [step (b :: d :: c :: post), solid, apart, triple]
  | case6 b solid d apart e r blank ih =>
      rw [List.cons_append, List.cons_append, List.cons_append, step, ← ih]
      simp [solid, apart, blank]
  | case7 b solid d apart e r solid' =>
      rw [List.cons_append, List.cons_append, List.cons_append, step]
      simp [solid, apart, solid']

end Trim

def openers : List UInt8 := [0x27, 0x2D, 0x2F]

theorem isBlank_opener {b : UInt8} (opens : b ∈ openers) : isBlank b = false := by
  simp only [openers, List.mem_cons, List.not_mem_nil, or_false] at opens
  rcases opens with rfl | rfl | rfl <;> rfl

theorem isBlank2_opener {b : UInt8} (opens : b ∈ openers) (c : UInt8) :
    isBlank2 c b = false ∧ isBlank2 b c = false := by
  simp only [openers, List.mem_cons, List.not_mem_nil, or_false] at opens
  rcases opens with rfl | rfl | rfl <;> simp [isBlank2]

theorem isBlank3_opener {b : UInt8} (opens : b ∈ openers) (c d : UInt8) :
    isBlank3 c d b = false ∧ isBlank3 c b d = false ∧ isBlank3 b c d = false := by
  simp only [openers, List.mem_cons, List.not_mem_nil, or_false, ← UInt8.toNat_inj,
    UInt8.reduceToNat] at opens
  simp only [isBlank3, Bool.or_eq_false_iff, Bool.and_eq_false_iff, decide_eq_false_iff_not,
    beq_eq_false_iff_ne, ne_eq, ← UInt8.toNat_inj, UInt8.le_iff_toNat_le, UInt8.reduceToNat]
  omega

theorem trimFront_quote (front rest : Text) :
    trimFront (front ++ 0x27 :: rest) = trimFront front ++ 0x27 :: rest :=
  dropBlanks_before (by decide) (isBlank2_opener (by decide)) (isBlank3_opener (by decide)) front rest

theorem trimBack_quote (rest back : Text) :
    trimBack (rest ++ 0x27 :: back) = rest ++ 0x27 :: trimBack back := by
  have opens : (0x27 : UInt8) ∈ openers := by decide
  have dropped : dropBlanks (fun c b => isBlank2 b c) (fun d c b => isBlank3 b c d)
      (back.reverse ++ 0x27 :: rest.reverse) =
        dropBlanks (fun c b => isBlank2 b c) (fun d c b => isBlank3 b c d) back.reverse ++
          0x27 :: rest.reverse := by
    apply dropBlanks_before (isBlank_opener opens)
    · exact fun b => (isBlank2_opener opens b).symm
    · intro a b
      obtain ⟨last, second, first⟩ := isBlank3_opener opens b a
      exact ⟨first, second, last⟩
  rw [trimBack, List.reverse_append, List.reverse_cons, List.append_assoc, List.singleton_append, dropped,
    trimBack, List.reverse_append, List.reverse_cons, List.reverse_reverse, List.append_assoc,
    List.singleton_append]

end Text

namespace Line

open Text

/-! ### Where a scan stands -/

/-- What a scan is inside of when it has read a text; nothing when the rest of the line is a comment. -/
@[simp] def Inside.after : Inside → Text → Option Inside
  | inside, [] => some inside
  | .literal, b :: rest => if b == 0x27 then after .code rest else after .literal rest
  | .comment true, _ :: rest => after .code rest
  | .comment false, b :: rest =>
    if b == 0x2A && rest.head? == some 0x2F then after (.comment true) rest
    else after (.comment false) rest
  | .code, b :: rest =>
    if b == 0x27 then after .literal rest
    else if b == 0x2D && rest.head? == some 0x2D then none
    else if b == 0x2F && rest.head? == some 0x2A then
      match rest with
      | _ :: rest' => after (.comment false) rest'
      | [] => none
    else after .code rest

theorem closes_of_after {outside : Inside} (t : Text) (out : Inside.after (.comment false) t = some outside)
    (left : ∀ closing, outside ≠ .comment closing) (more : Text) :
    Text.contains (t ++ more) "*/" = true := by
  rw [contains_iff]
  induction t with
  | nil =>
      cases out
      exact absurd rfl (left false)
  | cons b rest ih =>
      rw [Inside.after] at out
      split at out
      · rename_i closing
        obtain ⟨star, slash⟩ := Bool.and_eq_true_iff.mp closing
        obtain ⟨behind, rfl⟩ := List.head?_eq_some_iff.mp (beq_iff_eq.mp slash)
        rw [beq_iff_eq.mp star]
        exact ⟨[], behind ++ more, rfl⟩
      · exact (ih out).trans (List.suffix_cons b _).isInfix

/-- The flag of a scan says that it ends inside of a literal. -/
theorem opened_iff_after (inside : Inside) (t : Text) :
    (stripFrom inside t).2 = true ↔ inside.after t = some .literal := by
  fun_induction Inside.after inside t with
  | case1 inside => cases inside <;> simp [stripFrom]
  | case2 b t quote ih =>
      rw [stripFrom.eq_def]
      simp only [quote, if_true, ih]
  | case3 b t other ih =>
      rw [stripFrom.eq_def]
      simp only [other, if_false, Bool.false_eq_true, ih]
  | case4 b t ih =>
      rw [stripFrom.eq_def]
      exact ih
  | case5 b t closing ih =>
      rw [stripFrom.eq_def]
      simp only [closing, if_true, ih]
  | case6 b t unclosed ih =>
      rw [stripFrom.eq_def]
      simp only [unclosed, if_false, Bool.false_eq_true, ih]
  | case7 b t quote ih =>
      rw [stripFrom.eq_def]
      simp only [quote, if_true, ih]
  | case8 b t other comment =>
      rw [stripFrom.eq_def]
      simp [other, comment]
  | case9 b other next t uncommented block ih =>
      rw [stripFrom.eq_def]
      simp only [other, uncommented, block, List.drop_succ_cons, List.drop_zero, if_true, if_false,
        Bool.false_eq_true]
      cases closed : Text.contains t "*/" with
      | true => simp only [if_true, ih]
      | false =>
          -- A comment without an end mark lasts to the end of the line, so that no literal follows it.
          refine iff_of_false (by simp) fun opened => ?_
          have met := closes_of_after t opened (by simp) []
          rw [List.append_nil, closed] at met
          cases met
  | case10 b other uncommented block => simp at block
  | case11 b t other uncommented unblocked ih =>
      rw [stripFrom.eq_def]
      simp only [other, uncommented, unblocked, if_false, Bool.false_eq_true, ih]

theorem head_before_quote {c : UInt8} (other : c ≠ 0x27) (t rest : Text) :
    ((t ++ 0x27 :: rest).head? == some c) = (t.head? == some c) := by
  cases t with
  | nil => simp [other.symm]
  | cons b t => rfl

/-- A quote is read from where the text in front of it leaves a scan. -/
theorem after_before_quote (inside : Inside) (front rest : Text) :
    inside.after (front ++ 0x27 :: rest) =
      (inside.after front).bind fun here => here.after (0x27 :: rest) := by
  have dashNext := head_before_quote (c := 0x2D) (by decide)
  have starNext := head_before_quote (c := 0x2A) (by decide)
  have slashNext := head_before_quote (c := 0x2F) (by decide)
  fun_induction Inside.after inside front with
  | case1 inside => rfl
  | case2 b front quote ih =>
      rw [List.cons_append, Inside.after.eq_def, ← ih]
      simp only [quote, if_true]
  | case3 b front other ih =>
      rw [List.cons_append, Inside.after.eq_def, ← ih]
      simp only [other, if_false, Bool.false_eq_true]
  | case4 b front ih =>
      rw [List.cons_append, Inside.after.eq_def, ← ih]
  | case5 b front closing ih =>
      rw [List.cons_append, Inside.after.eq_def, ← ih]
      simp only [slashNext, closing, if_true]
  | case6 b front unclosed ih =>
      rw [List.cons_append, Inside.after.eq_def, ← ih]
      simp only [slashNext, unclosed, if_false, Bool.false_eq_true]
  | case7 b front quote ih =>
      rw [List.cons_append, Inside.after.eq_def, ← ih]
      simp only [quote, if_true]
  | case8 b front other comment =>
      rw [List.cons_append, Inside.after.eq_def]
      simp only [other, dashNext, comment, if_true, if_false, Bool.false_eq_true, Option.bind_none]
  | case9 b other next front uncommented block ih =>
      have dash := dashNext (next :: front) rest
      have star := starNext (next :: front) rest
      rw [List.cons_append] at dash star ⊢
      rw [List.cons_append, Inside.after.eq_def, ← ih]
      simp only [other, dash, uncommented, star, block, if_true, if_false, Bool.false_eq_true]
  | case10 b other uncommented block => simp at block
  | case11 b front other uncommented unblocked ih =>
      rw [List.cons_append, Inside.after.eq_def, ← ih]
      simp only [other, dashNext, uncommented, starNext, unblocked, if_false, Bool.false_eq_true]

/-- A text leaves a scan in the code when a quote behind it opens a literal. -/
theorem opened_quote_iff (front : Text) :
    (stripFrom .code (front ++ [0x27])).2 = true ↔ Inside.after .code front = some .code := by
  rw [opened_iff_after, after_before_quote]
  rcases Inside.after .code front with _ | _ | _ | closing
  · simp
  · simp
  · simp
  · cases closing <;> simp

theorem stripFrom_quote (rest : Text) :
    stripFrom .code (0x27 :: rest) = (0x27 :: (stripFrom .literal rest).1, (stripFrom .literal rest).2) := by
  rw [stripFrom.eq_def]
  rfl

/-- A scan that a text leaves outside of literals and comments goes on at a quote as if it began there. -/
theorem stripFrom_before_quote (inside : Inside) (front rest : Text) (out : inside.after front = some .code) :
    stripFrom inside (front ++ 0x27 :: rest) =
      ((stripFrom inside front).1 ++ (stripFrom .code (0x27 :: rest)).1,
        (stripFrom .code (0x27 :: rest)).2) := by
  have dashNext := head_before_quote (c := 0x2D) (by decide)
  have starNext := head_before_quote (c := 0x2A) (by decide)
  have slashNext := head_before_quote (c := 0x2F) (by decide)
  fun_induction Inside.after inside front with
  | case1 inside =>
      cases out
      rw [List.nil_append, stripFrom, List.nil_append]
      simp
  | case2 b front quote ih =>
      rw [List.cons_append, stripFrom.eq_def, stripFrom.eq_def .literal]
      simp only [quote, if_true, ih out, List.cons_append]
  | case3 b front other ih =>
      rw [List.cons_append, stripFrom.eq_def, stripFrom.eq_def .literal]
      simp only [other, if_false, Bool.false_eq_true, ih out]
  | case4 b front ih =>
      rw [List.cons_append, stripFrom.eq_def, stripFrom.eq_def (.comment true)]
      exact ih out
  | case5 b front closing ih =>
      rw [List.cons_append, stripFrom.eq_def, stripFrom.eq_def (.comment false)]
      simp only [slashNext, closing, if_true, ih out]
  | case6 b front unclosed ih =>
      rw [List.cons_append, stripFrom.eq_def, stripFrom.eq_def (.comment false)]
      simp only [slashNext, unclosed, if_false, Bool.false_eq_true, ih out]
  | case7 b front quote ih =>
      rw [List.cons_append, stripFrom.eq_def, stripFrom.eq_def .code]
      simp only [quote, if_true, ih out, List.cons_append]
  | case8 b front other comment => cases out
  | case9 b other next front uncommented block ih =>
      have dash := dashNext (next :: front) rest
      have star := starNext (next :: front) rest
      -- The scan has left the comment within `front`, so its end mark stands there.
      have closed := closes_of_after front out (by simp)
      have closedAlone := closed []
      rw [List.append_nil] at closedAlone
      rw [List.cons_append] at dash star ⊢
      rw [List.cons_append, stripFrom.eq_def, stripFrom.eq_def .code (b :: next :: front)]
      simp only [other, dash, uncommented, star, block, List.drop_succ_cons, List.drop_zero, closed,
        closedAlone, if_true, if_false, Bool.false_eq_true, ih out, List.cons_append]
  | case10 b other uncommented block => cases out
  | case11 b front other uncommented unblocked ih =>
      rw [List.cons_append, stripFrom.eq_def, stripFrom.eq_def .code (b :: front)]
      simp only [other, dashNext, uncommented, starNext, unblocked, if_false, Bool.false_eq_true, ih out,
        List.cons_append]

theorem stripFrom_literal (inner rest : Text) (unquoted : 0x27 ∉ inner) :
    stripFrom .literal (inner ++ 0x27 :: rest) =
      (0x27 :: (stripFrom .code rest).1, (stripFrom .code rest).2) := by
  induction inner with
  | nil =>
      rw [List.nil_append, stripFrom.eq_def]
      rfl
  | cons b inner ih =>
      rw [List.mem_cons, not_or] at unquoted
      rw [List.cons_append, stripFrom.eq_def]
      simp only [beq_iff_eq, Ne.symm unquoted.1, if_false, ih unquoted.2]

def withLiteral (front inner back : Text) : Text :=
  front ++ 0x27 :: (inner ++ 0x27 :: back)

theorem trim_withLiteral (front inner back : Text) :
    (withLiteral front inner back).trim = withLiteral front.trimFront inner back.trimBack := by
  rw [withLiteral, trim, trimFront_quote, ← List.cons_append, ← List.append_assoc, trimBack_quote,
    List.append_assoc, List.cons_append, withLiteral]

theorem stripFrom_withLiteral (front inner back : Text) (out : Inside.after .code front = some .code)
    (unquoted : 0x27 ∉ inner) :
    stripFrom .code (withLiteral front inner back) =
      ((stripFrom .code front).1 ++ 0x27 :: 0x27 :: (stripFrom .code back).1, (stripFrom .code back).2) := by
  rw [withLiteral, stripFrom_before_quote .code front _ out, stripFrom_quote,
    stripFrom_literal inner back unquoted]

theorem after_plain {b : UInt8} (plain : b ∉ openers) (rest : Text) :
    Inside.after .code (b :: rest) = Inside.after .code rest := by
  simp only [openers, List.mem_cons, List.not_mem_nil, or_false, not_or] at plain
  rw [Inside.after.eq_def]
  simp [plain]

theorem after_trimFront (t : Text) : Inside.after .code t.trimFront = Inside.after .code t := by
  have solid : ∀ b, isBlank b = true → b ∉ openers := by
    intro b blank opens
    rw [isBlank_opener opens] at blank
    cases blank
  rw [trimFront]
  fun_induction dropBlanks isBlank2 isBlank3 t with
  | case1 => rfl
  | case2 b rest blank ih => rw [ih, after_plain (solid b blank)]
  | case3 b solid => rfl
  | case4 b _ c rest blank ih =>
      have first : b ∉ openers := fun opens => by simp [isBlank2_opener opens] at blank
      have second : c ∉ openers := fun opens => by simp [isBlank2_opener opens] at blank
      rw [ih, after_plain first, after_plain second]
  | case5 b solid c apart => rfl
  | case6 b _ c _ d rest blank ih =>
      have first : b ∉ openers := fun opens => by simp [isBlank3_opener opens] at blank
      have second : c ∉ openers := fun opens => by simp [isBlank3_opener opens] at blank
      have third : d ∉ openers := fun opens => by simp [isBlank3_opener opens] at blank
      rw [ih, after_plain first, after_plain second, after_plain third]
  | case7 b solid c apart d rest solid' => rfl

/-! ### Lines that differ inside a literal -/

/-- A line without its text and the business functions that are looked for in all of its text. -/
def withoutText (l : Line) : Line :=
  { l with raw := [], trimmed := [], upper := [], business := [] }

theorem withoutText_number (l : Line) : l.withoutText.number = l.number :=
  rfl

theorem read_of_code {raw : Text} (visible : raw.trim ≠ []) (code : isCommentText raw.trim = false)
    (index : Int) :
    (read raw index).1.withoutText = { ofCode (strip raw.trim).1 with index := index } ∧
      (read raw index).2 = (strip raw.trim).2 := by
  have shown : raw.trim.isEmpty = false := List.isEmpty_eq_false_iff.mpr visible
  simp only [read, shown, code, Bool.false_eq_true, if_false, withoutText, ofCode, and_self]

theorem isCommentText_of_classify {raw : Text} {index : Int} (visible : raw.trim ≠ [])
    (code : (classify raw index).isComment = false) : isCommentText raw.trim = false := by
  have shown : raw.trim.isEmpty = false := List.isEmpty_eq_false_iff.mpr visible
  rw [classify, read, shown] at code
  cases comment : isCommentText raw.trim with
  | true => simp [comment] at code
  | false => rfl

theorem read_withLiteral {front inner other back : Text} {index : Int}
    (out : Inside.after .code front = some .code) (unquoted : 0x27 ∉ inner) (unquotedOther : 0x27 ∉ other)
    (code : (classify (withLiteral front inner back) index).isComment = false)
    (codeOther : (classify (withLiteral front other back) index).isComment = false) (place : Int) :
    (read (withLiteral front inner back) place).1.withoutText =
        (read (withLiteral front other back) place).1.withoutText ∧
      (read (withLiteral front inner back) place).2 = (read (withLiteral front other back) place).2 := by
  have visible : ∀ inner, (withLiteral front inner back).trim ≠ [] := by
    intro inner
    rw [trim_withLiteral, withLiteral]
    simp
  have outTrimmed : Inside.after .code front.trimFront = some .code := (after_trimFront front).trans out
  have stripped : strip (withLiteral front inner back).trim = strip (withLiteral front other back).trim := by
    rw [strip, strip, trim_withLiteral, trim_withLiteral, stripFrom_withLiteral _ _ _ outTrimmed unquoted,
      stripFrom_withLiteral _ _ _ outTrimmed unquotedOther]
  have own := read_of_code (visible inner) (isCommentText_of_classify (visible inner) code) place
  have others := read_of_code (visible other) (isCommentText_of_classify (visible other) codeOther) place
  rw [own.1, own.2, others.1, others.2, stripped]
  exact ⟨rfl, rfl⟩

/-- What a literal holds changes no line but in its text, and no warning of a script. -/
theorem literal_unread (front inner other back : Text) (index : Int)
    (out : Inside.after .code front = some .code) (unquoted : 0x27 ∉ inner) (unquotedOther : 0x27 ∉ other)
    (code : (classify (withLiteral front inner back) index).isComment = false)
    (codeOther : (classify (withLiteral front other back) index).isComment = false) :
    (classify (withLiteral front inner back) index).withoutText =
        (classify (withLiteral front other back) index).withoutText ∧
      ∀ above below : List Text,
        (Script.read (above ++ withLiteral front inner back :: below)).warnings =
          (Script.read (above ++ withLiteral front other back :: below)).warnings := by
  have alike := read_withLiteral out unquoted unquotedOther code codeOther
  refine ⟨(alike index).1, fun above below => ?_⟩
  obtain ⟨same, flag⟩ := alike (0 + above.length : Nat)
  have place := congrArg number same
  rw [withoutText_number, withoutText_number] at place
  simp only [Script.read, Script.readFrom_append, Script.readFrom, List.filterMap_append,
    List.filterMap_cons, place, flag]

/-- A literal with a name, the mark of a comment and a bracket, and one that seems to begin a comment. -/
theorem literal_unread_marks :
    let named := withLiteral "SELECT " "Customer -- (" ", @a FROM t"
    let marked := withLiteral "SELECT " "/*" ", @a FROM t"
    Inside.after .code "SELECT " = some .code ∧
      (classify named 4).isComment = false ∧ (classify marked 4).isComment = false ∧
      (classify named 4).withoutText = (classify marked 4).withoutText ∧
      ∀ above below : List Text, (Script.read (above ++ named :: below)).warnings =
        (Script.read (above ++ marked :: below)).warnings := by
  intro named marked
  have out : Inside.after .code "SELECT " = some .code := by decide +kernel
  have code : (classify named 4).isComment = false := by decide +kernel
  have codeOther : (classify marked 4).isComment = false := by decide +kernel
  exact ⟨out, code, codeOther, literal_unread "SELECT " "Customer -- (" "/*" ", @a FROM t" 4 out
    (by decide +kernel) (by decide +kernel) code codeOther⟩

end Line

end ScriptAtlas
