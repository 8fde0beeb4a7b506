import ScriptAtlas.Text.Basic

/-!
Patterns over bytes. A pattern read at a position has a list of ends in order of preference, and a
search takes the first end at the leftmost position that has one.
-/

namespace ScriptAtlas

/-- A position in a text: the bytes behind it, nearest first, the bytes ahead, and what the marked
parts passed so far have read. -/
structure Cursor where
  behind : Text
  ahead : Text
  marked : List Text := []
  deriving DecidableEq, Repr

inductive Pattern where
  | empty
  | one (accepts : UInt8 → Bool)
  | seq (first second : Pattern)
  | alt (preferred other : Pattern)
  /-- Any number of times, as often as possible. -/
  | many (body : Pattern)
  /-- Any number of times, as seldom as possible. -/
  | few (body : Pattern)
  | edge
  | start
  | stop
  | mark (body : Pattern)

namespace Pattern

def isWordByte (b : UInt8) : Bool :=
  Text.isDigit b || (0x41 ≤ b && b ≤ 0x5A) || (0x61 ≤ b && b ≤ 0x7A) || b == 0x5F

def startsWord (t : Text) : Bool :=
  match t with
  | b :: _ => isWordByte b
  | [] => false

def readBetween (c e : Cursor) : Text :=
  c.ahead.take (c.ahead.length - e.ahead.length)

/-- Up to `bound` repetitions, more ones preferred. -/
def repeatGreedy (step : Cursor → List Cursor) : Nat → Cursor → List Cursor
  | 0, c => [c]
  | bound + 1, c => (step c).flatMap (repeatGreedy step bound) ++ [c]

def repeatLazy (step : Cursor → List Cursor) : Nat → Cursor → List Cursor
  | 0, c => [c]
  | bound + 1, c => c :: (step c).flatMap (repeatLazy step bound)

/-- Where the pattern can end when it begins at a cursor, preferred ends first. Repetitions are
bounded by the bytes ahead, so a repeated pattern is one that reads at least one byte. -/
def ends : Pattern → Cursor → List Cursor
  | .empty, c => [c]
  | .one accepts, c =>
    match c.ahead with
    | b :: rest => if accepts b then [⟨b :: c.behind, rest, c.marked⟩] else []
    | [] => []
  | .seq first second, c => (first.ends c).flatMap second.ends
  | .alt preferred other, c => preferred.ends c ++ other.ends c
  | .many body, c => repeatGreedy body.ends c.ahead.length c
  | .few body, c => repeatLazy body.ends c.ahead.length c
  | .edge, c => if startsWord c.behind != startsWord c.ahead then [c] else []
  | .start, c => if c.behind.isEmpty then [c] else []
  | .stop, c => if c.ahead.isEmpty then [c] else []
  | .mark body, c => (body.ends c).map fun e => { e with marked := e.marked ++ [readBetween c e] }

structure Hit where
  /-- The bytes in front of it, nearest first. -/
  behind : Text
  text : Text
  marked : List Text
  ahead : Text
  deriving DecidableEq, Repr

/-- The preferred occurrence that begins exactly here. -/
def hitAt (p : Pattern) (behind ahead : Text) : Option Hit :=
  (p.ends ⟨behind, ahead, []⟩).head?.map fun e =>
    ⟨behind, readBetween ⟨behind, ahead, []⟩ e, e.marked, e.ahead⟩

def findFrom (p : Pattern) : Text → Text → Option Hit
  | behind, [] => p.hitAt behind []
  | behind, b :: rest =>
    match p.hitAt behind (b :: rest) with
    | some hit => some hit
    | none => findFrom p (b :: behind) rest

def find? (p : Pattern) (t : Text) : Option Hit :=
  p.findFrom [] t

def occurs (p : Pattern) (t : Text) : Bool :=
  (p.find? t).isSome

def leads (p : Pattern) (t : Text) : Bool :=
  !(p.ends ⟨[], t, []⟩).isEmpty

/-- The occurrences from left to right after the first `skip` bytes, none overlapping an earlier one.
-/
def allFrom (p : Pattern) : Text → Nat → Text → List Hit
  | _, _, [] => []
  | behind, skip + 1, b :: rest => allFrom p (b :: behind) skip rest
  | behind, 0, b :: rest =>
    match p.hitAt behind (b :: rest) with
    | some hit => hit :: allFrom p (b :: behind) (hit.text.length - 1) rest
    | none => allFrom p (b :: behind) 0 rest

def all (p : Pattern) (t : Text) : List Hit :=
  p.allFrom [] 0 t

def substituteFrom (p : Pattern) (put : Text) : Text → Nat → Text → Text
  | _, _, [] => []
  | behind, skip + 1, b :: rest => substituteFrom p put (b :: behind) skip rest
  | behind, 0, b :: rest =>
    match p.hitAt behind (b :: rest) with
    | some hit => put ++ substituteFrom p put (b :: behind) (hit.text.length - 1) rest
    | none => b :: substituteFrom p put (b :: behind) 0 rest

def substitute (p : Pattern) (put t : Text) : Text :=
  p.substituteFrom put [] 0 t

/-! ### Building patterns -/

instance : Append Pattern where
  append := seq

instance : OrOp Pattern where
  or := alt

def bytes : Text → Pattern
  | [] => .empty
  | [b] => .one (· == b)
  | b :: rest => .seq (.one (· == b)) (bytes rest)

def lit (s : String) : Pattern :=
  bytes (Text.ofString s)

instance : Coe String Pattern where
  coe := lit

def choice : List Pattern → Pattern
  | [] => .one fun _ => false
  | [p] => p
  | p :: rest => .alt p (choice rest)

def oneOf (words : List String) : Pattern :=
  choice (words.map lit)

def maybe (p : Pattern) : Pattern :=
  .alt p .empty

def some1 (p : Pattern) : Pattern :=
  .seq p (.many p)

def threeOrMore (p : Pattern) : Pattern :=
  .seq p (.seq p (.seq p (.many p)))

/-- The pattern between word edges. -/
def whole (p : Pattern) : Pattern :=
  .seq .edge (.seq p .edge)

/-- A blank inside a line, a line end or a form feed. -/
def isGapByte (b : UInt8) : Bool :=
  b == 0x09 || b == 0x0A || b == 0x0C || b == 0x0D || b == 0x20

def gap : Pattern := some1 (.one isGapByte)

def anyGap : Pattern := .many (.one isGapByte)

def wordByte : Pattern := .one isWordByte

/-- The rest of a line, as much of it as possible. -/
def anything : Pattern := .many (.one (· != 0x0A))

def byteIn (s : String) : Pattern :=
  .one fun b => List.elem b (Text.ofString s)

/-- The characters beyond ASCII that differ from a letter by case alone. -/
def longS : Pattern := bytes [0xC5, 0xBF]

def kelvinSign : Pattern := bytes [0xE2, 0x84, 0xAA]

def eitherCase (b : UInt8) : Pattern :=
  let same : Pattern := .one fun c => c == b || (isLetter b && c == b ^^^ 0x20)
  if b == 0x53 || b == 0x73 then .alt same longS
  else if b == 0x4B || b == 0x6B then .alt same kelvinSign
  else same
where
  isLetter (b : UInt8) : Bool := (0x41 ≤ b && b ≤ 0x5A) || (0x61 ≤ b && b ≤ 0x7A)

def anyCase (s : String) : Pattern :=
  go (Text.ofString s)
where
  go : Text → Pattern
    | [] => .empty
    | [b] => eitherCase b
    | b :: rest => .seq (eitherCase b) (go rest)

def oneOfAnyCase (words : List String) : Pattern :=
  choice (words.map anyCase)

/-- A word character where case does not matter. -/
def wordChar : Pattern :=
  .alt wordByte (.alt longS kelvinSign)

def wordCharOr (s : String) : Pattern :=
  .alt (byteIn s) wordChar

end Pattern

end ScriptAtlas
