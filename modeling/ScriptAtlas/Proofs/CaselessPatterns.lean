import ScriptAtlas.Proofs.LetterCase

/-!
Patterns that read a text in capitals as they read the text itself. The patterns that pick names out
of code in its own case are of this kind.
-/

namespace ScriptAtlas

open Text

def Cursor.capitals (c : Cursor) : Cursor :=
  ⟨c.behind.capitals, c.ahead.capitals, c.marked.map Text.capitals⟩

namespace Pattern

def Hit.capitals (h : Hit) : Hit :=
  ⟨h.behind.capitals, h.text.capitals, h.marked.map Text.capitals, h.ahead.capitals⟩

/-- Every byte that the pattern asks for may stand in either case. -/
def Caseless : Pattern → Prop
  | .one accepts => ∀ b, accepts (upperByte b) = accepts b
  | .seq p q | .alt p q => p.Caseless ∧ q.Caseless
  | .many p | .few p | .mark p => p.Caseless
  | .empty | .edge | .start | .stop => True

/-- Only small letters change their case, so that only these have to be tried. -/
theorem caseless_one_iff (accepts : UInt8 → Bool) :
    (∀ n < 26, accepts (UInt8.ofNat (0x61 + n) - 0x20) = accepts (UInt8.ofNat (0x61 + n))) ↔
      (one accepts).Caseless := by
  constructor
  · intro letters b
    rw [upperByte]
    split
    · rename_i letter
      simp only [Bool.and_eq_true, decide_eq_true_eq, UInt8.le_iff_toNat_le, UInt8.reduceToNat] at letter
      have small : UInt8.ofNat (0x61 + (b.toNat - 0x61)) = b := by
        rw [show 0x61 + (b.toNat - 0x61) = b.toNat by omega, UInt8.ofNat_toNat]
      have here := letters (b.toNat - 0x61) (by omega)
      rwa [small] at here
    · rfl
  · intro each n small
    have letter : (UInt8.ofNat (0x61 + n)).toNat = 0x61 + n := toNat_byte (by omega)
    have here := each (UInt8.ofNat (0x61 + n))
    rwa [upperByte, if_pos (by
      simp only [Bool.and_eq_true, decide_eq_true_eq, UInt8.le_iff_toNat_le, UInt8.reduceToNat, letter]
      omega)] at here

instance decidableCaseless : (p : Pattern) → Decidable p.Caseless
  | .one accepts => decidable_of_iff _ (caseless_one_iff accepts)
  | .seq p q | .alt p q =>
    have := decidableCaseless p
    have := decidableCaseless q
    inferInstanceAs (Decidable (p.Caseless ∧ q.Caseless))
  | .many p | .few p | .mark p => decidableCaseless p
  | .empty | .edge | .start | .stop => .isTrue trivial

theorem isWordByte_upperByte (b : UInt8) : isWordByte (upperByte b) = isWordByte b := by
  have mapped := upperByte_toNat b
  rw [Bool.eq_iff_iff]
  simp only [isWordByte, isDigit, Bool.or_eq_true, Bool.and_eq_true, decide_eq_true_eq, beq_iff_eq,
    UInt8.le_iff_toNat_le, ← UInt8.toNat_inj, UInt8.reduceToNat]
  split at mapped <;> omega

theorem startsWord_capitals (t : Text) : startsWord t.capitals = startsWord t := by
  cases t with
  | nil => rfl
  | cons b rest => exact isWordByte_upperByte b

theorem readBetween_capitals (c e : Cursor) :
    readBetween c.capitals e.capitals = (readBetween c e).capitals := by
  simp only [readBetween, Cursor.capitals, capitals_length, capitals_take]

section Repeat

variable {step : Cursor → List Cursor} (each : ∀ c, step c.capitals = (step c).map Cursor.capitals)

include each

theorem repeatGreedy_capitals (bound : Nat) (c : Cursor) :
    repeatGreedy step bound c.capitals = (repeatGreedy step bound c).map Cursor.capitals := by
  induction bound generalizing c with
  | zero => rfl
  | succ bound ih =>
      rw [repeatGreedy, repeatGreedy, each, List.flatMap_map, List.map_append, List.map_flatMap]
      simp only [ih, List.map_cons, List.map_nil]

theorem repeatLazy_capitals (bound : Nat) (c : Cursor) :
    repeatLazy step bound c.capitals = (repeatLazy step bound c).map Cursor.capitals := by
  induction bound generalizing c with
  | zero => rfl
  | succ bound ih =>
      rw [repeatLazy, repeatLazy, each, List.flatMap_map, List.map_cons, List.map_flatMap]
      simp only [ih]

end Repeat

theorem ends_capitals {p : Pattern} (caseless : p.Caseless) (c : Cursor) :
    p.ends c.capitals = (p.ends c).map Cursor.capitals := by
  induction p generalizing c with
  | empty => rfl
  | one accepts =>
      obtain ⟨behind, ahead, marked⟩ := c
      cases ahead with
      | nil => rfl
      | cons b rest =>
          have same := caseless b
          simp only [ends, Cursor.capitals, capitals_cons, same]
          split <;> rfl
  | seq p q first second =>
      simp only [ends, first caseless.1, List.flatMap_map, second caseless.2, List.map_flatMap]
  | alt p q first second => simp only [ends, first caseless.1, second caseless.2, List.map_append]
  | many p body =>
      rw [ends, ends, repeatGreedy_capitals (body caseless)]
      simp only [Cursor.capitals, capitals_length]
  | few p body =>
      rw [ends, ends, repeatLazy_capitals (body caseless)]
      simp only [Cursor.capitals, capitals_length]
  | edge =>
      simp only [ends, Cursor.capitals, startsWord_capitals]
      split <;> rfl
  | start =>
      simp only [ends, Cursor.capitals, capitals_isEmpty]
      split <;> rfl
  | stop =>
      simp only [ends, Cursor.capitals, capitals_isEmpty]
      split <;> rfl
  | mark p body =>
      rw [ends, ends, body caseless, List.map_map, List.map_map]
      refine List.map_congr_left fun e _ => ?_
      simp only [Function.comp_apply, readBetween_capitals]
      simp only [Cursor.capitals, List.map_append, List.map_cons, List.map_nil]

section Search

variable {p : Pattern} (caseless : p.Caseless)

include caseless

theorem hitAt_capitals (behind ahead : Text) :
    p.hitAt behind.capitals ahead.capitals = (p.hitAt behind ahead).map Hit.capitals := by
  have found := ends_capitals caseless ⟨behind, ahead, []⟩
  have between := readBetween_capitals ⟨behind, ahead, []⟩
  simp only [Cursor.capitals, List.map_nil] at found between
  rw [hitAt, hitAt, found, List.head?_map, Option.map_map, Option.map_map]
  refine congrArg (Option.map · _) (funext fun e => ?_)
  simp only [Function.comp_apply, Hit.capitals, Cursor.capitals, between]

theorem findFrom_capitals (behind ahead : Text) :
    p.findFrom behind.capitals ahead.capitals = (p.findFrom behind ahead).map Hit.capitals := by
  induction ahead generalizing behind with
  | nil => exact hitAt_capitals caseless behind []
  | cons b rest ih =>
      have here := hitAt_capitals caseless behind (b :: rest)
      rw [capitals_cons] at here ⊢
      rw [findFrom, findFrom, here]
      cases p.hitAt behind (b :: rest) with
      | none => exact ih (b :: behind)
      | some hit => rfl

theorem occurs_capitals (t : Text) : p.occurs t.capitals = p.occurs t := by
  have found := findFrom_capitals caseless [] t
  rw [capitals_nil] at found
  rw [occurs, occurs, find?, find?, found, Option.isSome_map]

theorem allFrom_capitals (behind : Text) (skip : Nat) (ahead : Text) :
    p.allFrom behind.capitals skip ahead.capitals =
      (p.allFrom behind skip ahead).map Hit.capitals := by
  fun_induction p.allFrom behind skip ahead with
  | case1 => rfl
  | case2 behind b rest skip ih => exact ih
  | case3 behind b rest hit found ih =>
      have here := hitAt_capitals caseless behind (b :: rest)
      rw [capitals_cons, found, Option.map_some] at here
      rw [capitals_cons, allFrom, here, List.map_cons, ← ih]
      simp only [Hit.capitals, capitals_length, capitals_cons]
  | case4 behind b rest found ih =>
      have here := hitAt_capitals caseless behind (b :: rest)
      rw [capitals_cons, found, Option.map_none] at here
      rw [capitals_cons, allFrom, here]
      exact ih

theorem all_capitals (t : Text) : p.all t.capitals = (p.all t).map Hit.capitals :=
  allFrom_capitals caseless [] 0 t

end Search

end Pattern

namespace Line

open Vocabulary

/-! ### Names -/

theorem addNames_capitals (names new : List Text) :
    addNames (names.map Text.capitals) (new.map Text.capitals) =
      (addNames names new).map Text.capitals := by
  rw [addNames, addNames]
  induction new generalizing names with
  | nil => rfl
  | cons name new ih =>
      rw [List.map_cons, List.foldl_cons, List.foldl_cons, hasName_capitals]
      split
      · exact ih names
      · rw [← ih, List.map_append, List.map_cons, List.map_nil]

section Marked

variable {p : Pattern} (caseless : p.Caseless)

include caseless

theorem firstMarked_capitals (code : Text) :
    firstMarked p code.capitals = (firstMarked p code).map Text.capitals := by
  rw [firstMarked, firstMarked, Pattern.all_capitals caseless, List.filterMap_map, List.map_filterMap]
  refine congrArg (List.filterMap · _) (funext fun hit => ?_)
  simp only [Function.comp_apply, Pattern.Hit.capitals, List.head?_map]

theorem typedNames_capitals (code : Text) :
    typedNames p code.capitals = (typedNames p code).map Text.capitals := by
  rw [typedNames, typedNames, Pattern.all_capitals caseless, List.filterMap_map, List.map_filterMap]
  refine congrArg (List.filterMap · _) (funext fun ⟨behind, text, marked, ahead⟩ => ?_)
  match marked with
  | [] | [_] => rfl
  | name :: type :: _ =>
      simp only [Function.comp_apply, Pattern.Hit.capitals, List.map_cons, upper_capitals]
      split <;> rfl

end Marked

theorem marks_uncased :
    ∀ mark ∈ ([",", "@", "@@", "--", "/*", "*", "*/"] : List Text), mark.all isUncased = true := by
  decide +kernel

theorem names_caseless : ∀ p ∈ [declaredVariable, declaredCursor, routineParameter, listedVariable,
    executeAnyCase, usedVariable, tableReference, deletedTable, sectionRun], p.Caseless := by
  decide +kernel

theorem declarationsOf_capitals (code upper : Text) :
    declarationsOf code.capitals upper = (declarationsOf code upper).map Text.capitals := by
  have comma : code.capitals.startsWith "," = code.startsWith "," :=
    startsWith_capitals (marks_uncased _ (by simp)) code
  have mark : code.capitals.startsWith "@" = code.startsWith "@" :=
    startsWith_capitals (marks_uncased _ (by simp)) code
  rw [declarationsOf, declarationsOf, comma, mark,
    firstMarked_capitals (names_caseless declaredVariable (by simp)),
    firstMarked_capitals (names_caseless declaredCursor (by simp)),
    typedNames_capitals (names_caseless routineParameter (by simp)),
    typedNames_capitals (names_caseless listedVariable (by simp)),
    Pattern.occurs_capitals (names_caseless executeAnyCase (by simp)),
    ← addNames_capitals, List.map_append, List.map_append, List.map_append]
  split <;> rfl

theorem variablesOf_capitals (code : Text) :
    variablesOf code.capitals = (variablesOf code).map Text.capitals := by
  have system : ∀ v : Text, v.capitals.startsWith "@@" = v.startsWith "@@" :=
    startsWith_capitals (marks_uncased _ (by simp))
  rw [variablesOf, variablesOf, Pattern.all_capitals (names_caseless usedVariable (by simp)),
    ← addNames_capitals, List.map_map, List.filter_map, List.filter_map, List.map_map]
  refine congrArg (addNames []) (congrArg (List.map _) (congrArg (List.filter · _) (funext fun hit => ?_)))
  simp only [Function.comp_apply, Pattern.Hit.capitals, system]

theorem tablesOf_capitals (code upper : Text) :
    tablesOf code.capitals upper = (tablesOf code upper).map Text.capitals := by
  rw [tablesOf, tablesOf]
  split
  · rfl
  · rw [firstMarked_capitals (names_caseless tableReference (by simp)),
      firstMarked_capitals (names_caseless deletedTable (by simp)), ← List.map_append, List.filter_map,
      ← addNames_capitals]
    refine congrArg (addNames []) (congrArg (List.map _) (congrArg (List.filter · _) (funext fun name => ?_)))
    simp only [Function.comp_apply, upper_capitals]

/-! ### Comments, literals and parentheses -/

theorem count_capitals {c : UInt8} (uncased : isUncased c = true) (t : Text) :
    List.count c t.capitals = List.count c t := by
  rw [List.count_eq_countP, List.count_eq_countP, capitals, List.countP_map]
  exact congrArg (List.countP · t) (funext (upperByte_beq uncased))

theorem parensOf_capitals (code : Text) : parensOf code.capitals = parensOf code := by
  rw [parensOf, parensOf, count_capitals (by decide), count_capitals (by decide)]

theorem isCommentText_capitals (t : Text) : isCommentText t.capitals = isCommentText t := by
  have uncased := marks_uncased
  simp only [List.forall_mem_cons, List.not_mem_nil, false_implies, implies_true, and_true] at uncased
  obtain ⟨-, -, -, line, opening, star, closing⟩ := uncased
  simp only [isCommentText, startsWith_capitals line, startsWith_capitals opening,
    startsWith_capitals star, endsWith_capitals closing, contains_capitals opening]

theorem isSectionText_capitals (t : Text) : isSectionText t.capitals = isSectionText t := by
  have front : ∀ t : Text, t.capitals.withoutFront "--" = (t.withoutFront "--").capitals :=
    withoutFront_capitals (marks_uncased _ (by simp))
  have opening : ∀ t : Text, t.capitals.withoutFront "/*" = (t.withoutFront "/*").capitals :=
    withoutFront_capitals (marks_uncased _ (by simp))
  have closing : ∀ t : Text, t.capitals.withoutBack "*/" = (t.withoutBack "*/").capitals :=
    withoutBack_capitals (marks_uncased _ (by simp))
  have blank : (fun c => !isBlankChar c) ∘ capitalChar = fun c => !isBlankChar c :=
    funext fun c => congrArg not (capitalChar_alike c).2.2.1
  have drawn : (fun c => sectionChars.elem c) ∘ capitalChar = fun c => sectionChars.elem c :=
    funext fun c => (capitalChar_alike c).2.2.2
  simp only [isSectionText, capitals_length, front, opening, closing, chars_capitals,
    Pattern.occurs_capitals (names_caseless sectionRun (by simp)), List.filter_map, blank, drawn,
    List.length_map]

theorem head_beq_capitals {c : UInt8} (uncased : isUncased c = true) (t : Text) :
    (t.capitals.head? == some c) = (t.head? == some c) := by
  cases t with
  | nil => rfl
  | cons b rest => exact upperByte_beq uncased b

theorem stripFrom_capitals (inside : Inside) (t : Text) :
    stripFrom inside t.capitals = ((stripFrom inside t).1.capitals, (stripFrom inside t).2) := by
  have closes : ∀ t : Text, t.capitals.contains "*/" = t.contains "*/" :=
    contains_capitals (marks_uncased _ (by simp))
  have quote := upperByte_beq (c := 0x27) (by decide)
  have star := upperByte_beq (c := 0x2A) (by decide)
  have dash := upperByte_beq (c := 0x2D) (by decide)
  have slash := upperByte_beq (c := 0x2F) (by decide)
  have starNext := head_beq_capitals (c := 0x2A) (by decide)
  have dashNext := head_beq_capitals (c := 0x2D) (by decide)
  have slashNext := head_beq_capitals (c := 0x2F) (by decide)
  have closesLater : ∀ t : Text, contains (t.capitals.drop 1) "*/" = contains (t.drop 1) "*/" := by
    intro t
    rw [← capitals_drop, closes]
  fun_induction stripFrom inside t with
  | case1 => rfl
  | case2 inside =>
      rw [capitals_nil]
      simp_all only [stripFrom]
  | case3 b rest isQuote code opened read ih =>
      simp only [capitals_cons, stripFrom, quote, isQuote, if_true, ih, read]
  | case4 b rest notQuote ih =>
      simp only [capitals_cons, stripFrom, quote, notQuote, if_false, ih, Bool.false_eq_true]
  | case5 b rest ih => exact ih
  | case6 b rest closing ih =>
      simp only [capitals_cons, stripFrom, star, slashNext, closing, if_true, ih]
  | case7 b rest unclosed ih =>
      simp only [capitals_cons, stripFrom, star, slashNext, unclosed, if_false, ih, Bool.false_eq_true]
  | case8 b rest isQuote code opened read ih =>
      rw [capitals_cons, stripFrom.eq_def]
      simp only [quote, isQuote, if_true, ih, read, capitals_cons]
  | case9 b rest notQuote isComment =>
      rw [capitals_cons, stripFrom.eq_def]
      simp only [quote, notQuote, dash, dashNext, isComment, if_true, if_false, Bool.false_eq_true,
        capitals_nil]
  | case10 b notQuote next rest code opened read notComment isBlock closed ih =>
      have later := closesLater (next :: rest)
      have starred := starNext (next :: rest)
      have dashed := dashNext (next :: rest)
      rw [capitals_cons] at later starred dashed
      rw [capitals_cons, capitals_cons, stripFrom.eq_def]
      simp only [quote, notQuote, dash, dashed, notComment, slash, starred, isBlock, later, closed,
        if_true, if_false, Bool.false_eq_true, ih, read]
      rfl
  | case11 b _ _ isBlock _ => simp at isBlock
  | case12 b rest notQuote notComment isBlock notClosed =>
      rw [capitals_cons, stripFrom.eq_def]
      simp only [quote, notQuote, dash, dashNext, notComment, slash, starNext, isBlock, closesLater,
        notClosed, if_true, if_false, Bool.false_eq_true, capitals_nil]
  | case13 b rest notQuote notComment notBlock code opened read ih =>
      rw [capitals_cons, stripFrom.eq_def]
      simp only [quote, notQuote, dash, dashNext, notComment, slash, starNext, notBlock, if_false,
        Bool.false_eq_true, ih, read, capitals_cons]

theorem strip_capitals (t : Text) : strip t.capitals = ((strip t).1.capitals, (strip t).2) := by
  simp only [strip, stripFrom_capitals, trim_capitals]

end Line

end ScriptAtlas
