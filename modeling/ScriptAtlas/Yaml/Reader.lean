import ScriptAtlas.Yaml.Basic

/-!
Reading settings files: block mappings and sequences by indentation, flow collections, plain, quoted
and block texts, and comments. A file that is not well formed has no value.
-/

namespace ScriptAtlas.Yaml

/-! ### Characters and lines -/

def isGap (c : Char) : Bool :=
  c == ' ' || c == '\t'

def isGapOrBreak (c : Char) : Bool :=
  isGap c || c == '\n'

def trimGaps (cs : List Char) : List Char :=
  ((cs.dropWhile isGap).reverse.dropWhile isGap).reverse

structure Row where
  indent : Nat
  text : List Char
  deriving DecidableEq, Repr

def unifyBreaks : List Char → List Char
  | [] => []
  | '\r' :: rest =>
    match rest with
    | '\n' :: _ => unifyBreaks rest
    | _ => '\n' :: unifyBreaks rest
  | c :: rest => c :: unifyBreaks rest

def splitRows : List Char → List (List Char)
  | [] => [[]]
  | c :: rest =>
    if c == '\n' then [] :: splitRows rest
    else
      match splitRows rest with
      | [] => [[c]]
      | row :: rows => (c :: row) :: rows

def rowOf (cs : List Char) : Row :=
  let spaces := cs.takeWhile (· == ' ')
  ⟨spaces.length, cs.drop spaces.length⟩

def unroll (cs : List Char) (rows : List Row) : List Char :=
  cs ++ rows.flatMap fun row => '\n' :: (List.replicate row.indent ' ' ++ row.text)

def isVoid (cs : List Char) : Bool :=
  match cs.dropWhile isGap with
  | [] => true
  | c :: _ => c == '#'

def skipVoid (rows : List Row) : List Row :=
  rows.dropWhile fun row => isVoid row.text

/-- The rows after a value that ended inside a row; nothing but a comment may follow it there. -/
def rowsAfter (cs : List Char) : Option (List Row) :=
  match splitRows cs with
  | [] => some []
  | here :: rest =>
    let afterGap := here.isEmpty || (here.head?.map isGap) == some true
    if isVoid here && afterGap then some (rest.map rowOf) else none

/-! ### Quoted text -/

/-- A break inside a text and the gaps around it: one break is a blank, others stay. -/
def foldBreak (cs : List Char) : Option (List Char × List Char) :=
  let run := cs.takeWhile isGapOrBreak
  let breaks := run.count '\n'
  if breaks == 0 then none
  else
    some (if breaks == 1 then [' '] else List.replicate (breaks - 1) '\n', cs.drop run.length)

def readSingle : Nat → List Char → Option (List Char × List Char)
  | 0, _ => none
  | _ + 1, [] => none
  | steps + 1, '\'' :: rest =>
    match rest with
    | '\'' :: rest => (readSingle steps rest).map fun (text, after) => ('\'' :: text, after)
    | _ => some ([], rest)
  | steps + 1, c :: rest =>
    match foldBreak (c :: rest) with
    | some (folded, after) =>
      (readSingle steps after).map fun (text, after) => (folded ++ text, after)
    | none => (readSingle steps rest).map fun (text, after) => (c :: text, after)

def hexDigit? (c : Char) : Option Nat :=
  if c.toNat < 0x80 then digitValue? c.toNat.toUInt8 else none

def hexChar (count : Nat) (cs : List Char) : Option (Char × List Char) :=
  if cs.length < count then none
  else
    ((cs.take count).foldlM (fun n c => (hexDigit? c).map (n * 16 + ·)) 0).map
      fun n => (Char.ofNat n, cs.drop count)

def escape : List Char → Option (List Char × List Char)
  | '0' :: rest => some ([Char.ofNat 0], rest)
  | 'a' :: rest => some ([Char.ofNat 7], rest)
  | 'b' :: rest => some ([Char.ofNat 8], rest)
  | 't' :: rest => some (['\t'], rest)
  | '\t' :: rest => some (['\t'], rest)
  | 'n' :: rest => some (['\n'], rest)
  | 'v' :: rest => some ([Char.ofNat 11], rest)
  | 'f' :: rest => some ([Char.ofNat 12], rest)
  | 'r' :: rest => some (['\r'], rest)
  | 'e' :: rest => some ([Char.ofNat 27], rest)
  | ' ' :: rest => some ([' '], rest)
  | '"' :: rest => some (['"'], rest)
  | '/' :: rest => some (['/'], rest)
  | '\\' :: rest => some (['\\'], rest)
  | 'N' :: rest => some (['\u0085'], rest)
  | '_' :: rest => some (['\u00A0'], rest)
  | 'L' :: rest => some (['\u2028'], rest)
  | 'P' :: rest => some (['\u2029'], rest)
  | 'x' :: rest => (hexChar 2 rest).map fun (c, after) => ([c], after)
  | 'u' :: rest => (hexChar 4 rest).map fun (c, after) => ([c], after)
  | 'U' :: rest => (hexChar 8 rest).map fun (c, after) => ([c], after)
  | '\n' :: rest => some ([], rest.dropWhile isGap)
  | _ => none

def readDouble : Nat → List Char → Option (List Char × List Char)
  | 0, _ => none
  | _ + 1, [] => none
  | _ + 1, '"' :: rest => some ([], rest)
  | steps + 1, '\\' :: rest =>
    match escape rest with
    | none => none
    | some (put, after) => (readDouble steps after).map fun (text, after) => (put ++ text, after)
  | steps + 1, c :: rest =>
    match foldBreak (c :: rest) with
    | some (folded, after) =>
      (readDouble steps after).map fun (text, after) => (folded ++ text, after)
    | none => (readDouble steps rest).map fun (text, after) => (c :: text, after)

def readQuoted (cs : List Char) : Option (Text × List Char) :=
  match cs with
  | '"' :: rest => (readDouble (rest.length + 1) rest).map fun (t, after) => (Text.ofChars t, after)
  | '\'' :: rest => (readSingle (rest.length + 1) rest).map fun (t, after) => (Text.ofChars t, after)
  | _ => none

/-! ### Flow collections -/

def skipFlowComment : Bool → List Char → List Char
  | _, [] => []
  | true, c :: rest => if c == '\n' then skipFlowComment false rest else skipFlowComment true rest
  | false, c :: rest =>
    if isGapOrBreak c then skipFlowComment false rest
    else if c == '#' then skipFlowComment true rest
    else c :: rest

def isFlowMark (c : Char) : Bool :=
  c == ',' || c == '[' || c == ']' || c == '{' || c == '}'

def endsFlowKey : List Char → Bool
  | [] => true
  | c :: _ => isGapOrBreak c || isFlowMark c

def flowPlain : Nat → List Char → List Char × List Char
  | 0, cs => ([], cs)
  | _ + 1, [] => ([], [])
  | steps + 1, c :: rest =>
    if isFlowMark c || (c == ':' && endsFlowKey rest) then ([], c :: rest)
    else
      match foldBreak (c :: rest) with
      | some (folded, after) =>
        let (text, after) := flowPlain steps after
        (folded ++ text, after)
      | none =>
        if isGap c && rest.head? == some '#' then ([], rest)
        else
          let (text, after) := flowPlain steps rest
          (c :: text, after)

def isReserved (c : Char) : Bool :=
  isFlowMark c || "#&*!|>'\"%@".toList.elem c || c == Char.ofNat 0x60

def beginsPlain : List Char → Bool
  | [] => false
  | c :: rest =>
    if c == '-' || c == '?' || c == ':' then
      match rest with
      | [] => false
      | d :: _ => !isGapOrBreak d
    else !isReserved c && c != '\t'

mutual

def readFlow : Nat → List Char → Option (Yaml × List Char)
  | 0, _ => none
  | steps + 1, cs =>
    match skipFlowComment false cs with
    | [] => none
    | '[' :: rest => (readFlowItems steps rest).map fun (items, after) => (.list items, after)
    | '{' :: rest => (readFlowMembers steps rest).map fun (members, after) => (.map members, after)
    | c :: rest =>
      if c == '"' || c == '\'' then
        (readQuoted (c :: rest)).map fun (t, after) => (.string t, after)
      else if !beginsPlain (c :: rest) then none
      else
        let (text, after) := flowPlain (rest.length + 2) (c :: rest)
        some (ofPlain (Text.ofChars (trimGaps text)), after)

def readFlowItems : Nat → List Char → Option (List Yaml × List Char)
  | 0, _ => none
  | steps + 1, cs =>
    match skipFlowComment false cs with
    | ']' :: rest => some ([], rest)
    | cs =>
      match readFlow steps cs with
      | none => none
      | some (item, rest) =>
        match skipFlowComment false rest with
        | ',' :: rest => (readFlowItems steps rest).map fun (items, after) => (item :: items, after)
        | ']' :: rest => some ([item], rest)
        | _ => none

def readFlowMembers : Nat → List Char → Option (List (Text × Yaml) × List Char)
  | 0, _ => none
  | steps + 1, cs =>
    match skipFlowComment false cs with
    | '}' :: rest => some ([], rest)
    | cs =>
      match readFlow steps cs with
      | none => none
      | some (key, rest) =>
        match key.toText?, readFlowMemberValue steps (skipFlowComment false rest) with
        | some name, some (value, rest) =>
          match skipFlowComment false rest with
          | ',' :: rest =>
            (readFlowMembers steps rest).map fun (members, after) => ((name, value) :: members, after)
          | '}' :: rest => some ([(name, value)], rest)
          | _ => none
        | _, _ => none

def readFlowMemberValue : Nat → List Char → Option (Yaml × List Char)
  | 0, _ => none
  | steps + 1, cs =>
    match cs with
    | ':' :: rest =>
      match skipFlowComment false rest with
      | ',' :: rest => some (.null, ',' :: rest)
      | '}' :: rest => some (.null, '}' :: rest)
      | rest => readFlow steps rest
    | cs => some (.null, cs)

end

/-! ### Plain text and keys in blocks -/

def beforeComment : Bool → List Char → List Char
  | _, [] => []
  | afterGap, c :: rest =>
    if c == '#' && afterGap then [] else c :: beforeComment (isGap c) rest

def hasKeyColon : List Char → Bool
  | [] => false
  | c :: rest =>
    (c == ':' && (rest.isEmpty || (rest.head?.map isGap) == some true)) || hasKeyColon rest

/-- The text before the colon that ends a plain key, and what follows it. -/
def cutKey : List Char → Option (List Char × List Char)
  | [] => none
  | c :: rest =>
    if c == ':' && (rest.isEmpty || (rest.head?.map isGap) == some true) then some ([], rest)
    else (cutKey rest).map fun (key, after) => (c :: key, after)

def readKey (cs : List Char) : Option (Text × List Char) :=
  match cs with
  | [] => none
  | c :: _ =>
    if c == '"' || c == '\'' then
      match readQuoted cs with
      | none => none
      | some (key, rest) =>
        match rest.dropWhile isGap with
        | ':' :: after =>
          if after.isEmpty || (after.head?.map isGap) == some true then some (key, after) else none
        | _ => none
    else if !beginsPlain cs then none
    else
      (cutKey (beforeComment true cs)).map fun (key, _) =>
        (Text.ofChars (trimGaps key), cs.drop (key.length + 1))

def isItem (cs : List Char) : Bool :=
  match cs with
  | '-' :: rest => rest.isEmpty || (rest.head?.map isGap) == some true
  | _ => false

/-- Further rows of a plain text that are indented more than `parent`, and the rows after them. A row
with a key in it does not continue a text. -/
def continuation (parent : Int) : Nat → List Row → Option (List Char × List Row)
  | _, [] => some ([], [])
  | breaks, row :: rows =>
    if row.text.isEmpty then continuation parent (breaks + 1) rows
    else if (row.indent : Int) ≤ parent || row.text.head? == some '#' then some ([], row :: rows)
    else
      let text := beforeComment true row.text
      if hasKeyColon (trimGaps text) then none
      else
        let folded := if breaks == 0 then [' '] else List.replicate breaks '\n'
        if text.length < row.text.length then some (folded ++ trimGaps text, rows)
        else
          (continuation parent 0 rows).map fun (more, after) =>
            (folded ++ trimGaps text ++ more, after)

def readPlain (parent : Int) (cs : List Char) (rows : List Row) : Option (Yaml × List Row) :=
  let text := beforeComment true cs
  if !beginsPlain cs || hasKeyColon (trimGaps text) then none
  else if text.length < cs.length then some (ofPlain (Text.ofChars (trimGaps text)), rows)
  else
    (continuation parent 0 rows).map fun (more, after) =>
      (ofPlain (Text.ofChars (trimGaps text ++ more)), after)

/-! ### Block text -/

/-- What happens to the breaks at the end of a block text. -/
inductive Chomp where
  | strip
  | clip
  | keep
  deriving DecidableEq, Repr

/-- The head of a block text: whether it is folded, its chomping, and its indentation if given. -/
def blockHead (cs : List Char) : Option (Bool × Chomp × Option Nat) :=
  let marks := trimGaps (beforeComment true cs)
  match marks with
  | [] => none
  | style :: rest =>
    let chomp :=
      if rest.elem '-' then Chomp.strip else if rest.elem '+' then Chomp.keep else Chomp.clip
    let digits := rest.filter Char.isDigit
    let known := rest.all fun c => c == '-' || c == '+' || c.isDigit
    if (style == '|' || style == '>') && known && decide (digits.length ≤ 1) then
      some (style == '>', chomp, digits.head?.map fun c => c.toNat - 0x30)
    else none

def blockRows (indent : Nat) : List Row → List Row × List Row
  | [] => ([], [])
  | row :: rows =>
    if row.text.isEmpty || indent ≤ row.indent then
      let (inside, after) := blockRows indent rows
      (row :: inside, after)
    else ([], row :: rows)

/-- The lines of a block text joined: with breaks, or with blanks between lines if it is folded. -/
def joinBlock (folded : Bool) : List (List Char) → List Char
  | [] => []
  | [line] => line
  | line :: rest =>
    let gap := if folded && !line.isEmpty && (rest.head?.map List.isEmpty) == some false
      then [' '] else if folded && line.isEmpty then [] else ['\n']
    line ++ gap ++ joinBlock folded rest

def readBlockText (parent : Int) (cs : List Char) (rows : List Row) : Option (Yaml × List Row) := do
  let (folded, chomp, given) ← blockHead cs
  let first := (rows.find? fun row => !row.text.isEmpty).map Row.indent
  let least := (parent + 1).toNat
  let indent :=
    match given with
    | some n => parent.toNat + n
    | none => Nat.max least (first.getD least)
  let (inside, after) := blockRows indent rows
  let lines := inside.map fun row =>
    if row.text.isEmpty then [] else List.replicate (row.indent - indent) ' ' ++ row.text
  let body := (lines.reverse.dropWhile List.isEmpty).reverse
  let text := joinBlock folded body
  let ended :=
    match chomp with
    | .strip => text
    | .clip => if body.isEmpty then [] else text ++ ['\n']
    | .keep => text ++ List.replicate (lines.length - body.length + 1) '\n'
  return (.string (Text.ofChars ended), after)

/-! ### Blocks -/

def readInline (parent : Int) (cs : List Char) (rows : List Row) : Option (Yaml × List Row) :=
  match cs with
  | [] => some (.null, rows)
  | c :: _ =>
    if c == '"' || c == '\'' then do
      let (text, after) ← readQuoted (unroll cs rows)
      return (.string text, ← rowsAfter after)
    else if c == '[' || c == '{' then do
      let all := unroll cs rows
      let (value, after) ← readFlow (2 * all.length + 2) all
      return (value, ← rowsAfter after)
    else if c == '|' || c == '>' then readBlockText parent cs rows
    else readPlain parent cs rows

def withoutAnchor (cs : List Char) : List Char :=
  match cs with
  | '&' :: rest => (rest.dropWhile fun c => !isGap c).dropWhile isGap
  | cs => cs

mutual

/-- The block in the next rows, if they are indented by `least` or more. -/
def readBlock : Nat → Nat → List Row → Option (Yaml × List Row)
  | 0, _, _ => none
  | steps + 1, least, rows =>
    match skipVoid rows with
    | [] => some (.null, [])
    | row :: rest =>
      if row.indent < least then some (.null, row :: rest)
      else if isItem row.text then
        (readSequence steps row.indent (row :: rest)).map fun (items, after) => (.list items, after)
      else
        match readKey row.text with
        | some _ =>
          (readMapping steps row.indent [] (row :: rest)).map
            fun (members, after) => (.map members, after)
        | none => readInline ((least : Int) - 1) row.text rest

def readSequence : Nat → Nat → List Row → Option (List Yaml × List Row)
  | 0, _, _ => none
  | steps + 1, indent, rows =>
    match skipVoid rows with
    | [] => some ([], [])
    | row :: rest =>
      if row.indent < indent then some ([], row :: rest)
      else if row.indent != indent then none
      else if !isItem row.text then some ([], row :: rest)
      else
        let spaced := row.text.drop 1
        let gap := spaced.takeWhile isGap
        let text := spaced.drop gap.length
        let found :=
          if isVoid text then readBlock steps (indent + 1) rest
          else readBlock steps (indent + 1) (⟨indent + 1 + gap.length, text⟩ :: rest)
        match found with
        | none => none
        | some (item, after) =>
          (readSequence steps indent after).map fun (items, after) => (item :: items, after)

/-- The members of a mapping; no name may come twice. -/
def readMapping : Nat → Nat → List Text → List Row → Option (List (Text × Yaml) × List Row)
  | 0, _, _, _ => none
  | steps + 1, indent, seen, rows =>
    match skipVoid rows with
    | [] => some ([], [])
    | row :: rest =>
      if row.indent < indent then some ([], row :: rest)
      else if row.indent != indent then none
      else
        match readKey row.text with
        | none => none
        | some (key, after) =>
          if seen.elem key then none
          else
            let text := withoutAnchor (after.dropWhile isGap)
            let found :=
              if isVoid text then
                match skipVoid rest with
                | next :: more =>
                  if next.indent == indent && isItem next.text then
                    (readSequence steps indent (next :: more)).map
                      fun (items, after) => (Yaml.list items, after)
                  else readBlock steps (indent + 1) (next :: more)
                | [] => some (.null, [])
              else readInline indent text rest
            match found with
            | none => none
            | some (value, after) =>
              (readMapping steps indent (key :: seen) after).map
                fun (members, after) => ((key, value) :: members, after)

end

/-! ### Documents -/

def isStart (row : Row) : Bool :=
  row.indent == 0 && (row.text.take 3 == ['-', '-', '-']) &&
    ((row.text[3]?).map isGap).getD true

def isEnd (row : Row) : Bool :=
  isStart row || (row.indent == 0 && (row.text.take 3 == ['.', '.', '.']) &&
    ((row.text[3]?).map isGap).getD true)

def documentRows (rows : List Row) : List Row :=
  let rows := rows.dropWhile fun row => isVoid row.text || row.text.head? == some '%'
  match rows with
  | [] => []
  | row :: rest =>
    let body := if isStart row then ⟨3, row.text.drop 3⟩ :: rest else row :: rest
    body.takeWhile fun row => !isEnd row

def isForbidden (c : Char) : Bool :=
  (c.toNat < 0x20 && c != '\t' && c != '\n' && c != '\r') || c.toNat == 0x7F

def parse? (t : Text) : Option Yaml :=
  let t := t.withoutFront [0xEF, 0xBB, 0xBF]
  if !t.isValid || t.chars.any isForbidden then none
  else
    let rows := documentRows ((splitRows (unifyBreaks t.chars)).map rowOf)
    match readBlock (4 * t.length + 8) 0 rows with
    | none => none
    | some (value, rest) => if (skipVoid rest).isEmpty then some value else none

end ScriptAtlas.Yaml
